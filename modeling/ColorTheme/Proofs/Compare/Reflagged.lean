import ColorTheme.Proofs.Account.Styles
import ColorTheme.Proofs.Compare.Revalued

/-!
# Flags have no part in the colors

A document is compared with what it becomes when one style flag is given another value.  The walks
need not come to like verdicts on the flag: it may be set in one, and rejected in the other.  But it
takes its path in both or in none, and it has a color in none, and the colors depend on nothing
else.

* `Verdict.SameColors` : the verdicts take the same paths and resolve the same colors.
* `sameColors_visitsOfItems`, `Stage.SameColors.walkBlocks` : walks whose verdicts on the flag are
  all that is different come to such verdicts.
* `Analysis.sameColors_revalueAll` : so the trees, the colors and the keys and colors of the styles
  are the same.
-/

set_option autoImplicit false

namespace ColorTheme

/-- The verdicts take the same path and resolve the same color. -/
structure Verdict.SameColors (v w : Verdict) : Prop where
  taken : w.taken? = v.taken?
  location : w.location? = v.location?

theorem Verdict.SameColors.refl (v : Verdict) : v.SameColors v := ⟨rfl, rfl⟩

theorem Verdict.Akin.sameColors {v w : Verdict} (h : v.Akin w) : v.SameColors w :=
  ⟨h.taken, h.location⟩

/-- The logs have such verdicts, one by one. -/
def Log.SameColors (log other : Log) : Prop := List.Forall₂ Verdict.SameColors log other

namespace Log.SameColors

variable {log other : Log}

theorem takes (h : log.SameColors other) (path : Path) : other.takes path = log.takes path := by
  induction h with
  | nil => rfl
  | cons hv _ ih =>
    unfold Log.takes at ih ⊢
    rw [List.any_cons, List.any_cons, ih, hv.taken]

theorem locations (h : log.SameColors other) :
    other.filterMap Verdict.location? = log.filterMap Verdict.location? := by
  induction h with
  | nil => rfl
  | cons hv _ ih => rw [List.filterMap_cons, List.filterMap_cons, ih, hv.location]

end Log.SameColors

/-- The walks have come to the same point, as far as colors are concerned. -/
structure Progress.SameColors (p q : Progress) : Prop where
  log : p.log.SameColors q.log
  tree : q.tree = p.tree

namespace Progress.SameColors

variable {p q : Progress} {rule : BlockRule}

theorem record {v w : Verdict} (h : p.SameColors q) (hv : v.SameColors w) :
    (p.record rule v).SameColors (q.record rule w) := by
  refine ⟨List.rel_append h.log (.cons hv .nil), ?_⟩
  have htaken := hv.taken
  have hlocation := hv.location
  cases v with
  | colored path name location =>
    cases w with
    | colored _ _ _ =>
      cases htaken
      cases hlocation
      rw [Progress.record, Progress.record, h.tree]
    | flagged _ _ _ _ | opened _ _ | noted _ _ _ | rejected _ _ | incomplete _ => cases hlocation
  | flagged _ _ _ _ | opened _ _ | noted _ _ _ | rejected _ _ | incomplete _ =>
    cases w with
    | colored _ _ _ => cases hlocation
    | flagged _ _ _ _ | opened _ _ | noted _ _ _ | rejected _ _ | incomplete _ => exact h.tree

theorem after {vs ws : List Visit} (h : p.SameColors q)
    (hvs : List.Forall₂ (fun v w => v.verdict.SameColors w.verdict) vs ws) :
    (p.after rule vs).SameColors (q.after rule ws) := by
  induction hvs generalizing p q with
  | nil => exact h
  | cons hv _ ih => exact ih (h.record hv)

end Progress.SameColors

/-! ## Inside a block -/

/-- What is visited at the place is a style flag. -/
def OnlyFlags (place : Span) (visits : List Visit) : Prop :=
  ∀ v ∈ visits, v.item.name.span = place → (v.rule.flag? v.enclosing v.item.name.name).isSome

theorem OnlyFlags.mono {place : Span} {vs ws : List Visit} (h : OnlyFlags place vs)
    (hws : ws ⊆ vs) : OnlyFlags place ws := fun v hv => h v (hws hv)

section

variable {place : Span} {e : Expr} {frame : Frame} {p q : Progress} {enclosing : Path}

/-- An attribute is judged by its name, what it takes and its value; a flag takes its path with any
value, and it has no color. -/
theorem sameColors_attributeVerdict (h : p.SameColors q) {a b : Attribute} (hname : b.name = a.name)
    (hvalue : b.value = a.value ∨ (frame.rule.flag? enclosing a.name.name).isSome) :
    (attributeVerdict frame p enclosing a).SameColors (attributeVerdict frame q enclosing b) := by
  unfold attributeVerdict
  dsimp only
  rw [hname, h.log.takes, h.tree]
  split
  · exact .refl _
  · split
    · exact .refl _
    · split
      · -- all that can come of a flag takes its path
        constructor
        · split <;> split <;> rfl
        · split <;> split <;> rfl
      · rename_i hnone
        rw [hnone] at hvalue
        rw [hvalue.resolve_right Bool.false_ne_true]
        split <;> exact ⟨rfl, rfl⟩

theorem groupVerdict_eq_of_sameColors (h : p.SameColors q) (rule : BlockRule) (kind : Ident) :
    groupVerdict rule q.log enclosing kind = groupVerdict rule p.log enclosing kind := by
  simp only [groupVerdict, h.log.takes]

end

section

variable {place : Span} {e : Expr}

mutual

theorem sameColors_visitsOfItem (frame : Frame) : ∀ (enclosing : Path) {p q : Progress}
    (item : Item), p.SameColors q → OnlyFlags place (visitsOfItem frame enclosing p item) →
    List.Forall₂ (fun v w => v.verdict.SameColors w.verdict) (visitsOfItem frame enclosing p item)
      (visitsOfItem frame enclosing q (item.revalue place e))
  | enclosing, p, q, .assignment a, hp, hflags => by
    rw [Item.revalue]
    refine .cons (sameColors_attributeVerdict hp a.name_revalue ?_) .nil
    by_cases hplace : a.name.span = place
    · exact .inr (hflags _ (List.mem_singleton_self _) hplace)
    · exact .inl (congrArg Attribute.value (Attribute.revalue_of_ne hplace))
  | enclosing, p, q, .block kind body span, hp, hflags => by
    rw [visitsOfItem] at hflags
    rw [Item.revalue, visitsOfItem, visitsOfItem, groupVerdict_eq_of_sameColors hp]
    refine .cons (.refl _) ?_
    cases h : groupVerdict frame.rule p.log enclosing kind with
    | opened path name =>
      rw [h] at hflags
      exact sameColors_visitsOfItems frame path body (hp.record (.refl _))
        (hflags.mono (List.subset_cons_self _ _))
    | colored _ _ _ | flagged _ _ _ _ | noted _ _ _ | rejected _ _ | incomplete _ => exact .nil

/-- **Where only flags are given another value, the walks take the same paths and resolve the same
colors.** -/
theorem sameColors_visitsOfItems (frame : Frame) : ∀ (enclosing : Path) {p q : Progress}
    (items : List Item), p.SameColors q → OnlyFlags place (visitsOfItems frame enclosing p items) →
    List.Forall₂ (fun v w => v.verdict.SameColors w.verdict) (visitsOfItems frame enclosing p items)
      (visitsOfItems frame enclosing q (revalueAll place e items))
  | _, _, _, [], _, _ => .nil
  | enclosing, p, q, item :: items, hp, hflags => by
    rw [visitsOfItems] at hflags
    rw [revalueAll, visitsOfItems, visitsOfItems]
    have hitem := sameColors_visitsOfItem frame enclosing item hp
      (hflags.mono (List.subset_append_left _ _))
    have hnext : (walkItem frame enclosing p item).SameColors
        (walkItem frame enclosing q (item.revalue place e)) := by
      rw [walkItem_eq_after, walkItem_eq_after]
      exact hp.after hitem
    exact List.rel_append hitem (sameColors_visitsOfItems frame enclosing items hnext
      (hflags.mono (List.subset_append_right _ _)))

end

end

/-! ## From block to block -/

/-- The walks have come to the same block, as far as colors are concerned: the trees are the same,
and so are the keys and the colors of the styles. -/
structure Stage.SameColors (stage other : Stage) : Prop where
  log : stage.log.SameColors other.log
  scopes : other.scopes = stage.scopes
  styles : other.styles.mapValues Style.color = stage.styles.mapValues Style.color

namespace Stage.SameColors

variable {place : Span} {e : Expr} {stage other : Stage} {rule : BlockRule} {block : Block}
  {body : Body} {table : BlockTable}

theorem start (h : stage.SameColors other) : (Chapter.mk rule block stage).start.SameColors
    (Chapter.mk rule (block.revalue place e) other).start :=
  ⟨List.rel_append h.log (.cons (.refl _) .nil), rfl⟩

theorem visits (h : stage.SameColors other)
    (hflags : OnlyFlags place (Chapter.mk rule block stage).visits) :
    List.Forall₂ (fun v w => v.verdict.SameColors w.verdict) (Chapter.mk rule block stage).visits
      (Chapter.mk rule (block.revalue place e) other).visits := by
  unfold Chapter.visits at hflags ⊢
  rw [Chapter.frame_revalue h.scopes]
  exact sameColors_visitsOfItems _ _ block.body h.start hflags

/-- Flags in a block change no color of the blocks behind it. -/
theorem enter (h : stage.SameColors other)
    (hflags : OnlyFlags place (Chapter.mk rule block stage).visits) :
    (stage.enter rule block).SameColors (other.enter rule (block.revalue place e)) := by
  let c : Chapter := ⟨rule, block, stage⟩
  let d : Chapter := ⟨rule, block.revalue place e, other⟩
  have hvisits : List.Forall₂ (fun v w => v.verdict.SameColors w.verdict) c.visits d.visits :=
    h.visits hflags
  have htree : d.tree = c.tree := (h.start.after hvisits).tree
  constructor
  · have hverdicts : Log.SameColors c.verdicts d.verdicts := by
      refine List.rel_append (.cons (.refl _) ?_) ?_
      · exact List.forall₂_map_left_iff.2 (List.forall₂_map_right_iff.2 hvisits)
      · rw [show completenessVerdicts d.rule d.block = completenessVerdicts c.rule c.block from
          completenessVerdicts_revalue rule block]
        exact List.forall₂_same.2 fun v _ => .refl v
    rw [c.log_enter, d.log_enter]
    exact List.rel_append h.log hverdicts
  · rw [c.scopes_enter, d.scopes_enter, htree, show d.stage.scopes = c.stage.scopes from h.scopes]
  · have hcolors (e : Chapter) :
        (stylesOf e.log e.rule.name e.tree).mapValues Style.color = e.tree.flatten :=
      colors_stylesOf e.log e.rule.name e.tree
    rw [c.styles_enter, d.styles_enter]
    show Entries.mapValues Style.color (if rule.styled then _ else _) = _
    split
    · rw [Entries.mapValues_putAll, Entries.mapValues_putAll, hcolors c, hcolors d, htree, h.styles]
    · exact h.styles

/-- **From block to block, the colors stay the same.** -/
theorem walkBlocks (h : stage.SameColors other)
    (hflags : ∀ c ∈ chaptersFrom body stage table, OnlyFlags place c.visits) :
    (walkBlocks body stage table).SameColors
      (ColorTheme.walkBlocks (revalueAll place e body) other table) := by
  induction table generalizing stage other with
  | nil => exact h
  | cons rule rules ih =>
    rw [chaptersFrom] at hflags
    rw [ColorTheme.walkBlocks, ColorTheme.walkBlocks, block?_revalueAll]
    cases hblock : body.block? rule.name with
    | none =>
      rw [hblock] at hflags
      exact ih h hflags
    | some block =>
      rw [hblock] at hflags
      exact ih (h.enter (hflags _ List.mem_cons_self))
        fun c hc => hflags c (List.mem_cons_of_mem _ hc)

end Stage.SameColors

/-! ## The analyses -/

namespace Analysis

variable {place : Span} {e : Expr} {table : BlockTable} {body : Body} {flaws : List Flaw}
  {c : Chapter} {v : Visit}

/-- The analyses find the same colors: in the trees, in the document and in the styles. -/
structure SameColors (a b : Analysis) : Prop where
  scopes : b.scopes = a.scopes
  colors : b.colors = a.colors
  styles : b.styles.mapValues Style.color = a.styles.mapValues Style.color

theorem sameColors_openingLog (h : ∀ f ∈ openingFindings table body, f.item.name.span ≠ place) :
    Log.SameColors (openingLog table body) (openingLog table (revalueAll place e body)) := by
  have hspared := spared_openingFindings (e := e)
    (.inl fun f hf hplace => absurd hplace (h f hf))
  rw [← map_verdict_openingFindings, ← map_verdict_openingFindings]
  exact (forall₂_akin hspared).imp fun _ _ hv => hv.sameColors

theorem sameColors_finalStage (hopening : ∀ f ∈ openingFindings table body,
      f.item.name.span ≠ place) (hflags : ∀ c ∈ chapters table body, OnlyFlags place c.visits)
    (h : HasPalette table body) :
    (finalStage table body).SameColors (finalStage table (revalueAll place e body)) := by
  rw [chapters, if_pos h] at hflags
  have hstart : (Stage.mk (openingLog table body) [] []).SameColors
      ⟨openingLog table (revalueAll place e body), [], []⟩ :=
    ⟨sameColors_openingLog hopening, rfl, rfl⟩
  exact hstart.walkBlocks hflags

/-- Where a flag is visited, nothing else is found. -/
theorem onlyFlags_of_flag (h : Regular table body)
    (hnames : ((spreadAll body).map fun i => i.name.span).Nodup) (hc : c ∈ chapters table body)
    (hv : v ∈ c.visits) (hflag : (c.rule.flag? v.enclosing v.item.name.name).isSome) :
    (∀ f ∈ openingFindings table body, f.item.name.span ≠ v.item.name.span) ∧
      ∀ d ∈ chapters table body, OnlyFlags v.item.name.span d.visits := by
  have hdistinct := distinct_findings h hnames
  have hchapter : v.finding ∈ (chapters table body).flatMap Chapter.findings :=
    List.mem_flatMap.2 ⟨c, hc, List.mem_cons_of_mem _ (List.mem_map_of_mem hv)⟩
  constructor
  · intro f hf hplace
    rw [findings, List.map_append] at hdistinct
    exact List.disjoint_of_nodup_append hdistinct (List.mem_map_of_mem hf)
      (List.mem_map.2 ⟨v.finding, hchapter, hplace.symm⟩)
  · intro d hd w hw hplace
    have hsame : w.finding = v.finding := List.inj_on_of_nodup_map hdistinct
      (finding_mem_of_visit hd hw) (finding_mem_of_visit hc hv) hplace
    have henclosing : w.enclosing = v.enclosing := congrArg Finding.enclosing hsame
    have hitem : w.item = v.item := congrArg Finding.item hsame
    have hrule : d.rule.name = c.rule.name := by
      obtain ⟨names, hw', -⟩ := d.tour.enclosing_eq hw
      obtain ⟨names', hv', -⟩ := c.tour.enclosing_eq hv
      exact (List.cons.inj (hw'.symm.trans (henclosing.trans hv'))).1
    obtain rfl := eq_of_ruleName h.names hc hd hrule
    rwa [show w.rule = d.rule from d.tour.rule w hw, henclosing, hitem]

/-- **The value of a flag has no part in the colors.** -/
theorem sameColors_revalueAll (h : Regular table body)
    (hnames : ((spreadAll body).map fun i => i.name.span).Nodup) (hc : c ∈ chapters table body)
    (hv : v ∈ c.visits) (hflag : (c.rule.flag? v.enclosing v.item.name.name).isSome) (e : Expr)
    (flaws flaws' : List Flaw) :
    (ofBody table body flaws).SameColors
      (ofBody table (revalueAll v.item.name.span e body) flaws') := by
  obtain ⟨hopening, hflags⟩ := onlyFlags_of_flag h hnames hc hv hflag
  have hstage := sameColors_finalStage (e := e) hopening hflags h.palette
  rw [ofBody_of_hasPalette h.palette, ofBody_of_hasPalette (hasPalette_revalueAll.2 h.palette)]
  exact ⟨hstage.scopes, hstage.log.locations, hstage.styles⟩

end Analysis

end ColorTheme
