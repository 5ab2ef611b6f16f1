import ColorTheme.Proofs.Account.Blocks
import ColorTheme.Proofs.Compare.Later
import ColorTheme.Proofs.Walk.Visibility
import Mathlib

/-!
# Later text has no influence on earlier results

A document is edited behind an attribute: in the block of the attribute, where items start later,
and in the blocks that the table puts behind this block.

* `Edited.block?_of_ne`, `Edited.block?_own` : the blocks before that of the attribute stay as they
  are, and its own differs in later items only.
* `Analysis.matches_of_edited` : so the attribute is visited in both documents, and the verdicts
  are the same up to `Reworded`.
* `Analysis.kept_of_edited` : it resolves in both documents to the same color, or in neither.
* `Analysis.not_only_reclassified` : a circular reference may come to be reported through another
  of the references in the value.
-/

set_option autoImplicit false

namespace ColorTheme

/-- Blocks of this name are worked out after those of the rule. -/
def BlockTable.Behind (table : BlockTable) (rule : BlockRule) (name : String) : Prop :=
  ∃ r, table.Before rule r ∧ r.name = name

/-- The second document comes from the first by edits behind a place in a block of the rule: inside
of this block, items that start behind the place are deleted and added, and the items stay in
order; of blocks that the table puts behind the rule, the contents are changed in any way, or they
are removed. -/
inductive Edited (table : BlockTable) (rule : BlockRule) (place : Nat) : Body → Body → Prop
  | nil : Edited table rule place [] []
  | keep (item : Item) {items items' : Body} (rest : Edited table rule place items items') :
      Edited table rule place (item :: items) (item :: items')
  | own (kind : Ident) {inner inner' : List Item} {span span' : Span} {items items' : Body}
      (name : kind.name = rule.name) (later : Later place inner inner') (inOrder : InOrder inner')
      (rest : Edited table rule place items items') :
      Edited table rule place (.block kind inner span :: items) (.block kind inner' span' :: items')
  | change (kind : Ident) (inner inner' : List Item) (span span' : Span) {items items' : Body}
      (behind : table.Behind rule kind.name) (rest : Edited table rule place items items') :
      Edited table rule place (.block kind inner span :: items) (.block kind inner' span' :: items')
  | remove (kind : Ident) (inner : List Item) (span : Span) {items items' : Body}
      (behind : table.Behind rule kind.name) (rest : Edited table rule place items items') :
      Edited table rule place (.block kind inner span :: items) items'

/-! ## Blocks of the edited document -/

section

variable {body body' : Body} {kind : Ident} {inner : List Item} {span : Span} {name : String}

theorem Body.block?_cons_of_eq (h : kind.name = name) :
    Body.block? (.block kind inner span :: body) name = some ⟨kind, inner, span⟩ :=
  List.find?_cons_of_pos (beq_iff_eq.2 h)

theorem Body.block?_cons_of_ne (h : kind.name ≠ name) :
    Body.block? (.block kind inner span :: body) name = body.block? name :=
  List.find?_cons_of_neg (mt beq_iff_eq.1 h)

variable {table : BlockTable} {rule : BlockRule} {place : Nat}

/-- A block that is not behind the rule, and not of it, stays as it is. -/
theorem Edited.block?_of_ne (h : Edited table rule place body body') (hname : name ≠ rule.name)
    (hbehind : ¬ table.Behind rule name) : body'.block? name = body.block? name := by
  induction h with
  | nil => rfl
  | keep item rest ih =>
    cases item with
    | assignment a => exact ih
    | block kind inner span =>
      by_cases hkind : kind.name = name
      · rw [Body.block?_cons_of_eq hkind, Body.block?_cons_of_eq hkind]
      · rw [Body.block?_cons_of_ne hkind, Body.block?_cons_of_ne hkind, ih]
  | own kind hown later inOrder rest ih =>
    have hkind : kind.name ≠ name := fun h => hname (h.symm.trans hown)
    rw [Body.block?_cons_of_ne hkind, Body.block?_cons_of_ne hkind, ih]
  | change kind inner inner' span span' behind rest ih =>
    have hkind : kind.name ≠ name := fun h => hbehind (h ▸ behind)
    rw [Body.block?_cons_of_ne hkind, Body.block?_cons_of_ne hkind, ih]
  | remove kind inner span behind rest ih =>
    have hkind : kind.name ≠ name := fun h => hbehind (h ▸ behind)
    rw [Body.block?_cons_of_ne hkind, ih]

/-- The block of the rule differs in later items only. -/
theorem Edited.block?_own (h : Edited table rule place body body')
    (hbehind : ¬ table.Behind rule rule.name) {block : Block}
    (hblock : body.block? rule.name = some block) (horder : InOrder block.body) :
    ∃ block', body'.block? rule.name = some block' ∧ block'.kind = block.kind ∧
      Later place block.body block'.body ∧ InOrder block'.body := by
  induction h with
  | nil => cases hblock
  | keep item rest ih =>
    cases item with
    | assignment a => exact ih hblock
    | block kind inner span =>
      by_cases hkind : kind.name = rule.name
      · rw [Body.block?_cons_of_eq hkind] at hblock
        rw [Body.block?_cons_of_eq hkind]
        exact ⟨block, hblock, rfl, .refl place block.body, horder⟩
      · rw [Body.block?_cons_of_ne hkind] at hblock
        rw [Body.block?_cons_of_ne hkind]
        exact ih hblock
  | own kind hown later inOrder rest ih =>
    rw [Body.block?_cons_of_eq hown] at hblock
    rw [Body.block?_cons_of_eq hown]
    cases hblock
    exact ⟨_, rfl, rfl, later, inOrder⟩
  | change kind inner inner' span span' behind rest ih =>
    have hkind : kind.name ≠ rule.name := fun h => hbehind (h ▸ behind)
    rw [Body.block?_cons_of_ne hkind] at hblock
    rw [Body.block?_cons_of_ne hkind]
    exact ih hblock
  | remove kind inner span behind rest ih =>
    have hkind : kind.name ≠ rule.name := fun h => hbehind (h ▸ behind)
    rw [Body.block?_cons_of_ne hkind] at hblock
    exact ih hblock

/-- Rules up to a rule are not behind it. -/
theorem BlockTable.not_behind (hnames : (table.map BlockRule.name).Nodup) {r : BlockRule}
    (h : r = rule ∨ table.Before r rule) : ¬ table.Behind rule r.name := by
  rintro ⟨s, hs, hname⟩
  have hsub : ∀ {x y : BlockRule}, table.Before x y → x ∈ table ∧ y ∈ table := fun h =>
    ⟨h.subset (by simp), h.subset (by simp)⟩
  have hr : r ∈ table := by
    rcases h with rfl | h
    · exact (hsub hs).1
    · exact (hsub h).1
  obtain rfl : s = r := List.inj_on_of_nodup_map hnames (hsub hs).2 hr hname
  rcases h with rfl | h
  · exact not_pair_sublist_of_nodup hnames.of_map hs hs
  · exact not_pair_sublist_of_nodup hnames.of_map hs h

end

/-! ## The walk through the edited document -/

/-- The items of each block are in order if those of the document are. -/
theorem InOrder.block {body : Body} {name : String} {block : Block} (h : InOrder body)
    (hblock : body.block? name = some block) : InOrder block.body :=
  List.Pairwise.sublist (spreadAll_sublist_of_mem (List.mem_of_find?_eq_some hblock)) h

/-- What is visited in a block is visited in one that differs in later items only, if the walks up
to these blocks are alike. -/
theorem Chapter.reappear_of_later {c e : Chapter} {place : Nat} (hrule : e.rule = c.rule)
    (hkind : e.block.kind = c.block.kind) (hstage : c.stage.Alike e.stage)
    (h : Later place c.block.body e.block.body) (horder : InOrder c.block.body)
    (horder' : InOrder e.block.body) : Reappear Reworded place c.visits e.visits := by
  have hstart : c.start.Alike e.start := by
    refine ⟨?_, rfl⟩
    rw [Chapter.start, Chapter.start, hrule, hkind]
    exact hstage.log.append _
  have hfollows : c.frame.Follows Reworded e.frame := Frame.follows_reworded hrule hstage.scopes
  rw [Chapter.visits, Chapter.visits, hrule]
  exact (h.parallel hfollows horder horder').found [c.rule.name] hstart

namespace Analysis

variable {table : BlockTable} {body body' : Body} {v : Visit} {a : Attribute}

/-- The palette cannot be edited away. -/
theorem hasPalette_of_edited {rule : BlockRule} {place : Nat} (h : HasPalette table body)
    (hedited : Edited table rule place body body') (horder : InOrder body)
    (hown : ¬ table.Behind rule rule.name) (hpalette : ¬ table.Behind rule paletteName) :
    HasPalette table body' := by
  refine ⟨h.1, ?_⟩
  by_cases hname : paletteName = rule.name
  · obtain ⟨block, hblock⟩ := Option.isSome_iff_exists.1 h.2
    rw [hname] at hblock ⊢
    obtain ⟨block', hblock', -⟩ := hedited.block?_own hown hblock (horder.block hblock)
    rw [hblock']
    rfl
  · rw [hedited.block?_of_ne hname hpalette]
    exact h.2

/-- The walks are alike up to the block that is edited behind a place. -/
theorem alike_of_edited (hnames : (table.map BlockRule.name).Nodup)
    (hmeta : metaName ∉ table.map BlockRule.name) {rule : BlockRule} {place : Nat}
    {before behind : BlockTable} (htable : table = before ++ rule :: behind)
    (hedited : Edited table rule place body body') :
    (walkBlocks body ⟨openingLog table body, [], []⟩ before).Alike
      (walkBlocks body' ⟨openingLog table body', [], []⟩ before) := by
  have hrule : rule ∈ table := by rw [htable]; exact List.mem_append_right _ List.mem_cons_self
  have hopening : (Stage.mk (openingLog table body) [] []).Alike ⟨openingLog table body', [], []⟩ := by
    refine ⟨alike_openingLog (hedited.block?_of_ne ?_ ?_), rfl, rfl⟩
    · exact fun hname => hmeta (hname ▸ List.mem_map_of_mem hrule)
    · rintro ⟨r, hr, hname⟩
      exact hmeta (hname ▸ List.mem_map_of_mem (hr.subset (by simp)))
  refine hopening.walkBlocks fun r hr => ?_
  have hbefore : table.Before r rule := by
    rw [htable]
    exact (List.singleton_sublist.2 hr).append (.cons_cons rule (List.nil_sublist _))
  refine hedited.block?_of_ne (fun hname => ?_) (BlockTable.not_behind hnames (.inr hbefore))
  obtain rfl : r = rule := List.inj_on_of_nodup_map hnames (hbefore.subset (by simp)) hrule hname
  exact not_pair_sublist_of_nodup hnames.of_map hbefore hbefore

/-- **An attribute is visited in both documents, with verdicts that differ in wording only.** -/
theorem matches_of_edited (hnames : (table.map BlockRule.name).Nodup)
    (hmeta : metaName ∉ table.map BlockRule.name)
    (hpalette : ∀ rule, ¬ table.Behind rule paletteName) (horder : InOrder body)
    (hv : v ∈ visits table body) (ha : v.item = .assignment a)
    (hedited : Edited table v.rule a.span.start body body') :
    ∃ w ∈ visits table body', v.Matches Reworded w := by
  obtain ⟨c, hc, hvisit⟩ := mem_visits.1 hv
  have hpresent := hasPalette_of_mem_chapters hc
  have hblock := block?_of_mem_chapters hc
  have hrule : v.rule = c.rule := c.tour.rule v hvisit
  rw [hrule] at hedited
  have hown : ¬ table.Behind c.rule c.rule.name := BlockTable.not_behind hnames (.inl rfl)
  have hpresent' := hasPalette_of_edited hpresent hedited horder hown (hpalette _)
  -- up to the block of the attribute the walks are alike
  rw [chapters, if_pos hpresent] at hc
  obtain ⟨before, behind, htable, hstage⟩ := split_of_mem_chaptersFrom hc
  have halike := alike_of_edited hnames hmeta htable hedited
  rw [← hstage] at halike
  -- and this block differs in later items only
  obtain ⟨block, hblock', hkind, hlater, horder'⟩ :=
    hedited.block?_own hown hblock (horder.block hblock)
  have hfound : Reappear Reworded a.span.start c.visits (Chapter.visits ⟨c.rule, block, _⟩) :=
    Chapter.reappear_of_later rfl hkind halike hlater (horder.block hblock) horder'
  have hearly : v.item.span.start ≤ a.span.start := by
    rw [ha]
    exact Nat.le_refl a.span.start
  obtain ⟨w, hw, hmatches⟩ := hfound v hvisit hearly a ha
  refine ⟨w, mem_visits.2 ⟨_, ?_, hw⟩, hmatches⟩
  rw [chapters, if_pos hpresent', htable]
  exact mem_chaptersFrom_of_split hblock'

/-- The items of a source are in order. -/
theorem inOrder_read (source : String) : InOrder (Body.read source).items := by
  refine (Body.read_ordered source).imp_of_mem fun {i j} hi hj hlt => ?_
  rw [Body.read_start source hi, Body.read_start source hj]
  exact Nat.le_of_lt hlt

/-- Verdicts that differ in wording only come to the same colors. -/
theorem resolvesTo_iff_of_matches {w : Visit} (h : v.Matches Reworded w) (a : Attribute)
    (c : Color) : w.ResolvesTo a c ↔ v.ResolvesTo a c := by
  have hpath : w.path = v.path := by rw [Visit.path, Visit.path, h.enclosing, h.item]
  rw [Visit.ResolvesTo, Visit.ResolvesTo, hpath, h.item]
  exact and_congr_right fun _ => h.verdict.colored_iff

/-- Nothing comes before the palette. -/
theorem not_behind_palette (rule : BlockRule) : ¬ BlockTable.standard.Behind rule paletteName := by
  rintro ⟨r, hr, hname⟩
  have hothers : ∀ r ∈ BlockTable.standard.tail, r.name ≠ paletteName := by decide
  exact hothers r (hr.tail.subset List.mem_cons_self) hname

/-- **Later text has no influence on earlier results.**  An attribute that the walk comes to in a
source is visited in every document edited behind it, and resolves there to the same colors.  Only
if its value fails can the verdicts differ, and then both report the same failure, as it is or as a
circle through one of the references in the value. -/
theorem kept_of_edited (source : String) (hv : v ∈ visits .standard (Body.read source).items)
    (ha : v.item = .assignment a)
    (hedited : Edited .standard v.rule a.span.start (Body.read source).items body') :
    ∃ w ∈ visits .standard body', w.enclosing = v.enclosing ∧ w.item = v.item ∧
      (∀ c, w.ResolvesTo a c ↔ v.ResolvesTo a c) ∧
      Reworded v.enclosing v.item v.verdict w.verdict := by
  obtain ⟨w, hw, hmatches⟩ := matches_of_edited BlockTable.proper_standard.names (by decide)
    not_behind_palette (inOrder_read source) hv ha hedited
  exact ⟨w, hw, hmatches.enclosing, hmatches.item, resolvesTo_iff_of_matches hmatches a,
    hmatches.verdict⟩

/-- A palette with an attribute that refers to one that is missing and to a later one. -/
def pendingSource : String :=
  "palette \x7b\n x = brighten(palette.a, palette.b)\n b = #000000\n \x7d"

/-- The same palette, with the missing attribute at its end. -/
def grownSource : String :=
  "palette \x7b\n x = brighten(palette.a, palette.b)\n b = #000000\n a = #ffffff\n \x7d"

/-- The rule for the palette. -/
def paletteRule : BlockRule := BlockTable.standard.head (by decide)

/-- The attribute `x = brighten(palette.a, palette.b)`. -/
def pendingAttribute : Attribute where
  name := ⟨"x", ⟨11, 12⟩⟩
  value := .call ⟨"brighten", ⟨15, 23⟩⟩
    [.path ⟨"palette", ⟨24, 31⟩⟩ [⟨"a", ⟨32, 33⟩⟩] ⟨24, 33⟩,
      .path ⟨"palette", ⟨35, 42⟩⟩ [⟨"b", ⟨43, 44⟩⟩] ⟨35, 44⟩] ⟨15, 45⟩
  span := ⟨11, 45⟩

/-- The attribute `b = #000000`. -/
def blackAttribute : Attribute := ⟨⟨"b", ⟨47, 48⟩⟩, .hex "#000000" ⟨51, 58⟩, ⟨47, 58⟩⟩

/-- The attribute `a = #ffffff`. -/
def whiteAttribute : Attribute := ⟨⟨"a", ⟨60, 61⟩⟩, .hex "#ffffff" ⟨64, 71⟩, ⟨60, 71⟩⟩

theorem read_pendingSource : (Body.read pendingSource).items =
    [.block ⟨"palette", ⟨0, 7⟩⟩
      [.assignment pendingAttribute, .assignment blackAttribute] ⟨0, 61⟩] := by
  cbv

theorem read_grownSource : (Body.read grownSource).items =
    [.block ⟨"palette", ⟨0, 7⟩⟩ [.assignment pendingAttribute, .assignment blackAttribute,
      .assignment whiteAttribute] ⟨0, 74⟩] := by
  cbv

/-- The visit to the attribute with two references, in the palette that reports it through the
given one. -/
def pendingVisit (reference : Path) : Visit :=
  ⟨paletteRule, ["palette"], .assignment pendingAttribute,
    .rejected (some ["palette", "x"]) ⟨.circular "x" reference .later, ⟨15, 45⟩⟩⟩

/-- The visit to the attribute that resolves to black. -/
def blackVisit : Visit :=
  ⟨paletteRule, ["palette"], .assignment blackAttribute,
    .colored ["palette", "b"] ⟨47, 48⟩ ⟨⟨51, 58⟩, ⟨0, 0, 0⟩, false⟩⟩

theorem visits_pendingSource : visits .standard (Body.read pendingSource).items =
    [pendingVisit ["palette", "b"], blackVisit] := by
  rw [read_pendingSource]
  cbv

theorem visits_grownSource : visits .standard (Body.read grownSource).items =
    [pendingVisit ["palette", "a"], blackVisit, ⟨paletteRule, ["palette"],
      .assignment whiteAttribute,
      .colored ["palette", "a"] ⟨60, 61⟩ ⟨⟨64, 71⟩, ⟨255, 255, 255⟩, false⟩⟩] := by
  rw [read_grownSource]
  cbv

theorem edited_pendingSource {place : Nat} (h : place < 60) :
    Edited .standard paletteRule place (Body.read pendingSource).items
      (Body.read grownSource).items := by
  rw [read_pendingSource, read_grownSource]
  refine .own _ rfl ?_ (by decide) .nil
  exact .keep _ (.keep _ (.add _ h .nil))

theorem kept_of_edited_pendingSource :
    blackVisit ∈ visits .standard (Body.read pendingSource).items ∧
      blackVisit.item = .assignment blackAttribute ∧
      Edited .standard blackVisit.rule blackAttribute.span.start (Body.read pendingSource).items
        (Body.read grownSource).items ∧
      ∃ w ∈ visits .standard (Body.read grownSource).items, w.enclosing = blackVisit.enclosing ∧
        w.item = blackVisit.item ∧
        (∀ c, w.ResolvesTo blackAttribute c ↔ blackVisit.ResolvesTo blackAttribute c) ∧
        Reworded blackVisit.enclosing blackVisit.item blackVisit.verdict w.verdict := by
  have hv : blackVisit ∈ visits .standard (Body.read pendingSource).items := by
    rw [visits_pendingSource]
    exact List.mem_cons_of_mem _ List.mem_cons_self
  have hedited := edited_pendingSource (show blackAttribute.span.start < 60 by decide)
  exact ⟨hv, rfl, hedited, kept_of_edited pendingSource hv rfl hedited⟩

/-- The verdicts are the same, or one reports as it is what the other reports as a circle. -/
def Reclassified (v w : Verdict) : Prop :=
  w = v ∨ ∃ taken span failure name reference reason,
    (v = .rejected taken ⟨.circular name reference reason, span⟩ ∧
      w = .rejected taken ⟨.unresolved failure, span⟩) ∨
    (v = .rejected taken ⟨.unresolved failure, span⟩ ∧
      w = .rejected taken ⟨.circular name reference reason, span⟩)

/-- It is not only that a failure is reported as it is or as a circle: a circle may be reported
through another of the references. -/
theorem not_only_reclassified :
    ¬ ∀ (source : String) (body' : Body) (v : Visit) (a : Attribute),
      v ∈ visits .standard (Body.read source).items → v.item = .assignment a →
      Edited .standard v.rule a.span.start (Body.read source).items body' →
      ∃ w ∈ visits .standard body', w.enclosing = v.enclosing ∧ w.item = v.item ∧
        (∀ c, w.ResolvesTo a c ↔ v.ResolvesTo a c) ∧ Reclassified v.verdict w.verdict := by
  intro h
  have hv : pendingVisit ["palette", "b"] ∈ visits .standard (Body.read pendingSource).items := by
    rw [visits_pendingSource]
    exact List.mem_cons_self
  obtain ⟨w, hw, -, hitem, -, hverdict⟩ := h pendingSource (Body.read grownSource).items
    (pendingVisit ["palette", "b"]) pendingAttribute hv rfl (edited_pendingSource (by decide))
  have hname : w.item.name.name = "x" := by rw [hitem]; rfl
  rw [visits_grownSource] at hw
  rcases List.mem_cons.1 hw with rfl | hw
  · rcases hverdict with hsame | ⟨_, _, _, _, _, _, ⟨-, hnew⟩ | ⟨hold, -⟩⟩
    · exact absurd hsame (by decide)
    · cases hnew
    · cases hold
  · rcases List.mem_cons.1 hw with rfl | hw
    · exact absurd hname (by decide)
    · rw [List.mem_singleton.1 hw] at hname
      exact absurd hname (by decide)

end Analysis

end ColorTheme
