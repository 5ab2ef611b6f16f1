import ColorTheme.Proofs.Account.Blocks
import ColorTheme.Proofs.Account.Spans
import ColorTheme.Proofs.Compare.Alike

/-!
# A broken attribute affects nothing but itself

A document is compared with what it becomes when one attribute is given another value.  As long as
the attribute is rejected in both, the walks go side by side: all other items are judged alike.

* `revalueAll` : the items with another value for the attribute whose name stands at a place.
* `Spoiled` : at the place everything is rejected, because of its name, or in both documents.
* `spared_visitsOfItems`, `Stage.Alike.spared` : then all findings but those at the place are the
  same.
* `Analysis.confined` : so an attribute that is rejected has no part in the results but its own
  diagnostic, and if it is rejected because of its name, its value has no part in that either.
-/

set_option autoImplicit false

namespace ColorTheme

/-! ## Another value -/

/-- The attribute with the value `e`, if its name stands at the place. -/
def Attribute.revalue (place : Span) (e : Expr) (a : Attribute) : Attribute :=
  if a.name.span = place then { a with value := e } else a

mutual

/-- The item with the value `e` for the attribute whose name stands at the place. -/
def Item.revalue (place : Span) (e : Expr) : Item → Item
  | .assignment a => .assignment (a.revalue place e)
  | .block kind body span => .block kind (revalueAll place e body) span

/-- The items with the value `e` for the attribute whose name stands at the place. -/
def revalueAll (place : Span) (e : Expr) : List Item → List Item
  | [] => []
  | item :: items => item.revalue place e :: revalueAll place e items

end

/-- The block with the value `e` for the attribute whose name stands at the place. -/
def Block.revalue (place : Span) (e : Expr) (b : Block) : Block :=
  ⟨b.kind, revalueAll place e b.body, b.span⟩

section

variable {place : Span} {e : Expr}

@[simp] theorem Attribute.name_revalue (a : Attribute) : (a.revalue place e).name = a.name := by
  unfold Attribute.revalue
  split <;> rfl

theorem Attribute.revalue_of_ne {a : Attribute} (h : a.name.span ≠ place) :
    a.revalue place e = a := if_neg h

@[simp] theorem Item.name_revalue (item : Item) : (item.revalue place e).name = item.name := by
  cases item with
  | assignment a =>
    rw [Item.revalue]
    exact a.name_revalue
  | block kind body span =>
    rw [Item.revalue]
    rfl

theorem revalueAll_eq_map (place : Span) (e : Expr) (items : List Item) :
    revalueAll place e items = items.map (Item.revalue place e) := by
  induction items with
  | nil => rfl
  | cons item items ih => rw [revalueAll, ih, List.map_cons]

theorem attributes_revalueAll (place : Span) (e : Expr) (body : Body) :
    Body.attributes (revalueAll place e body) = body.attributes.map (Attribute.revalue place e) := by
  rw [revalueAll_eq_map, Body.attributes, Body.attributes, List.filterMap_map, List.map_filterMap]
  refine List.filterMap_congr fun item _ => ?_
  cases item <;> rw [Function.comp_apply, Item.revalue] <;> rfl

theorem blocks_revalueAll (place : Span) (e : Expr) (body : Body) :
    Body.blocks (revalueAll place e body) = body.blocks.map (Block.revalue place e) := by
  rw [revalueAll_eq_map, Body.blocks, Body.blocks, List.filterMap_map, List.map_filterMap]
  refine List.filterMap_congr fun item _ => ?_
  cases item <;> rw [Function.comp_apply, Item.revalue] <;> rfl

theorem block?_revalueAll (place : Span) (e : Expr) (body : Body) (name : String) :
    Body.block? (revalueAll place e body) name = (body.block? name).map (Block.revalue place e) := by
  rw [Body.block?, Body.block?, blocks_revalueAll, List.find?_map]
  rfl

mutual

theorem declared_revalue (place : Span) (e : Expr) : ∀ (enclosing : Path) (item : Item),
    (item.revalue place e).declared enclosing = item.declared enclosing
  | enclosing, .assignment a => by rw [Item.revalue, Item.declared, Item.declared, a.name_revalue]
  | enclosing, .block kind body span => by
    rw [Item.revalue, Item.declared, Item.declared, declaredByAll_revalueAll place e _ body]

/-- The same paths are declared. -/
theorem declaredByAll_revalueAll (place : Span) (e : Expr) : ∀ (enclosing : Path)
    (items : List Item), declaredByAll enclosing (revalueAll place e items) =
      declaredByAll enclosing items
  | enclosing, [] => rfl
  | enclosing, item :: items => by
    rw [revalueAll, declaredByAll, declaredByAll, declared_revalue place e enclosing item,
      declaredByAll_revalueAll place e enclosing items]

end

mutual

theorem spread_revalue (place : Span) (e : Expr) : ∀ item : Item,
    (item.revalue place e).spread = item.spread.map (Item.revalue place e)
  | .assignment a => by
    rw [Item.revalue, Item.spread, Item.spread, List.map_singleton, Item.revalue]
  | .block kind body span => by
    rw [Item.revalue, Item.spread, Item.spread, List.map_cons, spreadAll_revalueAll place e body,
      Item.revalue]

/-- At any depth, the items are those of the document, with the value. -/
theorem spreadAll_revalueAll (place : Span) (e : Expr) : ∀ items : List Item,
    spreadAll (revalueAll place e items) = (spreadAll items).map (Item.revalue place e)
  | [] => rfl
  | item :: items => by
    rw [revalueAll, spreadAll, spreadAll, List.map_append, spread_revalue place e item,
      spreadAll_revalueAll place e items]

end

theorem completenessVerdicts_revalue (rule : BlockRule) (block : Block) :
    completenessVerdicts rule (block.revalue place e) = completenessVerdicts rule block := by
  have hassigned : (block.revalue place e).body.attributes.map (fun a => a.name.name) =
      block.body.attributes.map fun a => a.name.name := by
    show (Body.attributes (revalueAll place e block.body)).map _ = _
    rw [attributes_revalueAll, List.map_map]
    exact List.map_congr_left fun a _ => congrArg Ident.name a.name_revalue
  rw [completenessVerdicts, completenessVerdicts, hassigned]
  rfl

end

/-! ## Findings side by side -/

/-- The findings are on the same item, and they are the same but for one that is rejected because
of the value at the place: that one still answers the walk in the same way. -/
structure Finding.Spared (place : Span) (f g : Finding) : Prop where
  name : g.item.name = f.item.name
  elsewhere : f.item.name.span ≠ place → g.verdict = f.verdict
  named : ∀ d, f.verdict = .rejected none d → g.verdict = f.verdict
  akin : f.verdict.Akin g.verdict
  note : g.verdict.note? = f.verdict.note?

/-- What is found at the place is rejected: because of its name, or in both documents. -/
def Spoiled (place : Span) (fs gs : List Finding) : Prop :=
  (∀ f ∈ fs, f.item.name.span = place → ∃ d, f.verdict = .rejected none d) ∨
    (∀ f ∈ fs, f.item.name.span = place → ∃ taken d, f.verdict = .rejected taken d) ∧
      ∀ g ∈ gs, g.item.name.span = place → ∃ taken d, g.verdict = .rejected taken d

theorem Spoiled.mono {place : Span} {fs gs fs' gs' : List Finding} (h : Spoiled place fs gs)
    (hfs : fs' ⊆ fs) (hgs : gs' ⊆ gs) : Spoiled place fs' gs' := by
  rcases h with hnamed | ⟨hleft, hright⟩
  · exact .inl fun f hf => hnamed f (hfs hf)
  · exact .inr ⟨fun f hf => hleft f (hfs hf), fun g hg => hright g (hgs hg)⟩

theorem Spoiled.left {place : Span} {fs gs fs' gs' : List Finding}
    (h : Spoiled place (fs ++ fs') (gs ++ gs')) : Spoiled place fs gs :=
  h.mono (List.subset_append_left _ _) (List.subset_append_left _ _)

theorem Spoiled.right {place : Span} {fs gs fs' gs' : List Finding}
    (h : Spoiled place (fs ++ fs') (gs ++ gs')) : Spoiled place fs' gs' :=
  h.mono (List.subset_append_right _ _) (List.subset_append_right _ _)

/-- What does not depend on the value is the same. -/
theorem Finding.Spared.of_eq {place : Span} {f g : Finding} (hname : g.item.name = f.item.name)
    (hverdict : g.verdict = f.verdict) : f.Spared place g where
  name := hname
  elsewhere _ := hverdict
  named _ _ := hverdict
  akin := hverdict ▸ .refl _
  note := by rw [hverdict]

/-- Verdicts on two attributes of one name: the name is rejected, or both take it. -/
def SameName (path : Path) (v w : Verdict) : Prop :=
  (∃ d, v = .rejected none d ∧ w = v) ∨ v.taken? = some path ∧ w.taken? = some path

/-- Attributes of one name that are rejected, and not because of it, answer the walk alike. -/
theorem Finding.Spared.of_sameName {place : Span} {f g : Finding} {path : Path}
    (hname : g.item.name = f.item.name) (hsame : SameName path f.verdict g.verdict)
    (helsewhere : f.item.name.span ≠ place → g.verdict = f.verdict)
    (hspoiled : Spoiled place [f] [g]) : f.Spared place g := by
  rcases hsame with ⟨d, hd, heq⟩ | ⟨htaken, htaken'⟩
  · exact .of_eq hname heq
  · by_cases hplace : f.item.name.span = place
    · rcases hspoiled with hnamed | ⟨hleft, hright⟩
      · obtain ⟨d, hd⟩ := hnamed f (List.mem_singleton_self f) hplace
        rw [hd] at htaken
        cases htaken
      · obtain ⟨taken, d, hf⟩ := hleft f (List.mem_singleton_self f) hplace
        obtain ⟨taken', d', hg⟩ := hright g (List.mem_singleton_self g) (by rw [hname, hplace])
        rw [hf] at htaken
        rw [hg] at htaken'
        cases htaken
        cases htaken'
        refine ⟨hname, fun hne => absurd hplace hne, fun d hd => ?_, ?_, by rw [hf, hg]; rfl⟩
        · rw [hf] at hd
          cases hd
        · rw [hf, hg]
          exact ⟨rfl, rfl, rfl, rfl⟩
    · exact .of_eq hname (helsewhere hplace)

/-! ## Inside a block -/

section

variable {place : Span} {e : Expr} {p q : Progress}

/-- An attribute whose name is allowed and free takes its path, whatever its value. -/
theorem taken?_attributeVerdict {frame : Frame} {enclosing : Path} {a : Attribute}
    (hname : frame.rule.allows a.name.name = true)
    (hfree : p.log.takes (enclosing ++ [a.name.name]) = false) :
    (attributeVerdict frame p enclosing a).taken? = some (enclosing ++ [a.name.name]) := by
  have hallows : ¬ frame.rule.allows a.name.name = false := by
    rw [hname]
    exact Bool.noConfusion
  have htakes : ¬ p.log.takes (enclosing ++ [a.name.name]) = true := by
    rw [hfree]
    exact Bool.noConfusion
  unfold attributeVerdict
  dsimp only
  rw [if_neg hallows, if_neg htakes]
  split
  · split <;> rfl
  · split <;> rfl

theorem sameName_attributeVerdict (frame : Frame) (h : p.Alike q) (enclosing : Path)
    {a b : Attribute} (hname : b.name = a.name) :
    SameName (enclosing ++ [a.name.name]) (attributeVerdict frame p enclosing a)
      (attributeVerdict frame q enclosing b) := by
  by_cases hallows : frame.rule.allows a.name.name = false
  · refine .inl ⟨⟨.nameNotAllowed frame.rule.name a.name.name
      (frame.rule.allowedNames.getD []), a.name.span⟩, ?_, ?_⟩
    · exact if_pos hallows
    · unfold attributeVerdict
      dsimp only
      rw [hname, if_pos hallows, if_pos hallows]
  · by_cases htakes : p.log.takes (enclosing ++ [a.name.name]) = true
    · refine .inl ⟨⟨.duplicateDefinition (enclosing ++ [a.name.name]), a.name.span⟩, ?_, ?_⟩
      · unfold attributeVerdict
        dsimp only
        rw [if_neg hallows, if_pos htakes]
      · unfold attributeVerdict
        dsimp only
        rw [hname, if_neg hallows, if_neg hallows, h.log.takes, if_pos htakes, if_pos htakes]
    · right
      have hallows := eq_true_of_ne_false hallows
      have htakes := eq_false_of_ne_true htakes
      refine ⟨taken?_attributeVerdict hallows htakes, ?_⟩
      rw [← hname] at hallows htakes ⊢
      rw [← h.log.takes] at htakes
      exact taken?_attributeVerdict hallows htakes

/-- Walks that come to findings which answer alike come to the same point. -/
theorem Progress.Alike.after_spared {vs ws : List Visit} {rule : BlockRule} (h : p.Alike q)
    (hvs : List.Forall₂ (fun v w => v.finding.Spared place w.finding) vs ws) :
    (p.after rule vs).Alike (q.after rule ws) :=
  h.after_akin (hvs.imp fun _ _ hv => hv.akin)

mutual

theorem spared_visitsOfItem (frame : Frame) : ∀ (enclosing : Path) {p q : Progress} (item : Item),
    p.Alike q →
    Spoiled place ((visitsOfItem frame enclosing p item).map Visit.finding)
      ((visitsOfItem frame enclosing q (item.revalue place e)).map Visit.finding) →
    List.Forall₂ (fun v w => v.finding.Spared place w.finding)
      (visitsOfItem frame enclosing p item)
      (visitsOfItem frame enclosing q (item.revalue place e))
  | enclosing, p, q, .assignment a, hp, hspoiled => by
    rw [Item.revalue] at hspoiled ⊢
    refine .cons (.of_sameName a.name_revalue
      (sameName_attributeVerdict frame hp enclosing a.name_revalue) (fun hne => ?_) hspoiled) .nil
    show attributeVerdict frame q enclosing (a.revalue place e) = _
    rw [Attribute.revalue_of_ne hne]
    exact attributeVerdict_alike frame hp enclosing a
  | enclosing, p, q, .block kind body span, hp, hspoiled => by
    -- whether the block is opened depends on its name, not on what is in it
    have hsame := groupVerdict_alike hp.log frame.rule enclosing kind
    rw [Item.revalue, visitsOfItem, visitsOfItem, hsame] at hspoiled
    rw [Item.revalue, visitsOfItem, visitsOfItem, hsame]
    refine .cons (.of_eq rfl rfl) ?_
    cases h : groupVerdict frame.rule p.log enclosing kind with
    | opened path name =>
      rw [h] at hspoiled
      exact spared_visitsOfItems frame path body (hp.record (.refl _))
        (hspoiled.mono (List.subset_cons_self _ _) (List.subset_cons_self _ _))
    | colored _ _ _ | flagged _ _ _ _ | noted _ _ _ | rejected _ _ | incomplete _ => exact .nil

/-- **As long as what is found at the place is rejected, all other findings are the same.** -/
theorem spared_visitsOfItems (frame : Frame) : ∀ (enclosing : Path) {p q : Progress}
    (items : List Item), p.Alike q →
    Spoiled place ((visitsOfItems frame enclosing p items).map Visit.finding)
      ((visitsOfItems frame enclosing q (revalueAll place e items)).map Visit.finding) →
    List.Forall₂ (fun v w => v.finding.Spared place w.finding)
      (visitsOfItems frame enclosing p items)
      (visitsOfItems frame enclosing q (revalueAll place e items))
  | _, _, _, [], _, _ => .nil
  | enclosing, p, q, item :: items, hp, hspoiled => by
    rw [revalueAll, visitsOfItems, visitsOfItems, List.map_append, List.map_append] at hspoiled
    rw [revalueAll, visitsOfItems, visitsOfItems]
    have hitem := spared_visitsOfItem frame enclosing item hp hspoiled.left
    have hnext : (walkItem frame enclosing p item).Alike
        (walkItem frame enclosing q (item.revalue place e)) := by
      rw [walkItem_eq_after, walkItem_eq_after]
      exact hp.after_spared hitem
    exact List.rel_append hitem (spared_visitsOfItems frame enclosing items hnext hspoiled.right)

end

end

/-! ## From block to block -/

namespace Chapter

variable {place : Span} {e : Expr} {stage other : Stage} {rule : BlockRule} {block : Block}

/-- What holds for all items of a block does not depend on their values. -/
theorem frame_revalue (hscopes : other.scopes = stage.scopes) :
    (Chapter.mk rule (block.revalue place e) other).frame =
      (Chapter.mk rule block stage).frame := by
  unfold Chapter.frame
  dsimp only
  rw [hscopes]
  exact congrArg (Frame.mk rule · stage.scopes) (declaredByAll_revalueAll place e _ block.body)

theorem start_revalue (h : stage.Alike other) :
    (Chapter.mk rule block stage).start.Alike
      (Chapter.mk rule (block.revalue place e) other).start :=
  ⟨h.log.concat (.refl _), rfl⟩

/-- The visits to a block and to the same block with another value at the place. -/
theorem spared_visits (h : stage.Alike other)
    (hspoiled : Spoiled place (Chapter.mk rule block stage).findings
      (Chapter.mk rule (block.revalue place e) other).findings) :
    List.Forall₂ (fun v w => v.finding.Spared place w.finding)
      (Chapter.mk rule block stage).visits
      (Chapter.mk rule (block.revalue place e) other).visits := by
  have hinside := hspoiled.mono (List.subset_cons_self _ _) (List.subset_cons_self _ _)
  unfold Chapter.visits at hinside ⊢
  rw [frame_revalue h.scopes] at hinside ⊢
  exact spared_visitsOfItems _ _ block.body (start_revalue h) hinside

theorem spared_findings (h : stage.Alike other)
    (hspoiled : Spoiled place (Chapter.mk rule block stage).findings
      (Chapter.mk rule (block.revalue place e) other).findings) :
    List.Forall₂ (Finding.Spared place) (Chapter.mk rule block stage).findings
      (Chapter.mk rule (block.revalue place e) other).findings :=
  .cons (.of_eq rfl rfl)
    (List.forall₂_map_left_iff.2 (List.forall₂_map_right_iff.2 (spared_visits h hspoiled)))

end Chapter

/-- Chapters on a block, and on the same block with another value at the place, in which all
findings but those at the place are the same. -/
structure Chapter.Spared (place : Span) (e : Expr) (c other : Chapter) : Prop where
  rule : other.rule = c.rule
  block : other.block = c.block.revalue place e
  findings : List.Forall₂ (Finding.Spared place) c.findings other.findings

/-- The verdicts of findings that are the same but at the place answer the walk alike. -/
theorem forall₂_akin {place : Span} {fs gs : List Finding}
    (h : List.Forall₂ (Finding.Spared place) fs gs) :
    List.Forall₂ Verdict.Akin (fs.map Finding.verdict) (gs.map Finding.verdict) :=
  List.forall₂_map_left_iff.2 (List.forall₂_map_right_iff.2 (h.imp fun _ _ hf => hf.akin))

theorem Chapter.Spared.completeness {place : Span} {e : Expr} {c other : Chapter}
    (h : c.Spared place e other) :
    completenessVerdicts other.rule other.block = completenessVerdicts c.rule c.block := by
  rw [h.rule, h.block, completenessVerdicts_revalue]

theorem Chapter.Spared.akin {place : Span} {e : Expr} {c other : Chapter}
    (h : c.Spared place e other) : List.Forall₂ Verdict.Akin c.verdicts other.verdicts := by
  rw [c.verdicts_eq, other.verdicts_eq, h.completeness]
  exact List.rel_append (forall₂_akin h.findings) (List.forall₂_same.2 fun v _ => .refl v)

namespace Stage.Alike

variable {place : Span} {e : Expr} {stage other : Stage} {rule : BlockRule} {block : Block}
variable {body : Body} {table : BlockTable}

/-- Stages that are alike stay so where one of them enters the block with another value. -/
theorem enter_spared (h : stage.Alike other)
    (hspoiled : Spoiled place (Chapter.mk rule block stage).findings
      (Chapter.mk rule (block.revalue place e) other).findings) :
    (stage.enter rule block).Alike (other.enter rule (block.revalue place e)) := by
  have hchapters : (Chapter.mk rule block stage).Spared place e
      ⟨rule, block.revalue place e, other⟩ := ⟨rfl, rfl, Chapter.spared_findings h hspoiled⟩
  have hdone : ((Chapter.mk rule block stage).start.after rule
        (Chapter.mk rule block stage).visits).Alike
      ((Chapter.mk rule (block.revalue place e) other).start.after rule
        (Chapter.mk rule (block.revalue place e) other).visits) :=
    (Chapter.start_revalue h).after_spared (Chapter.spared_visits h hspoiled)
  have htree : (Chapter.mk rule (block.revalue place e) other).tree =
      (Chapter.mk rule block stage).tree := hdone.tree
  have hlog : (Chapter.mk rule block stage).log.Alike
      (Chapter.mk rule (block.revalue place e) other).log := hdone.log
  constructor
  · rw [(Chapter.mk rule block stage).log_enter,
      (Chapter.mk rule (block.revalue place e) other).log_enter]
    exact h.log.append_akin hchapters.akin
  · rw [(Chapter.mk rule block stage).scopes_enter,
      (Chapter.mk rule (block.revalue place e) other).scopes_enter, htree, h.scopes]
  · rw [(Chapter.mk rule block stage).styles_enter,
      (Chapter.mk rule (block.revalue place e) other).styles_enter, htree, stylesOf_alike hlog,
      h.styles]

/-- **From stages that are alike, the chapters are alike but for what is found at the place.** -/
theorem spared (h : stage.Alike other)
    (hspoiled : Spoiled place ((ColorTheme.chaptersFrom body stage table).flatMap Chapter.findings)
      ((ColorTheme.chaptersFrom (revalueAll place e body) other table).flatMap Chapter.findings)) :
    List.Forall₂ (Chapter.Spared place e) (ColorTheme.chaptersFrom body stage table)
        (ColorTheme.chaptersFrom (revalueAll place e body) other table) ∧
      (ColorTheme.walkBlocks body stage table).Alike (ColorTheme.walkBlocks (revalueAll place e body) other table) := by
  induction table generalizing stage other with
  | nil => exact ⟨.nil, h⟩
  | cons rule rules ih =>
    rw [ColorTheme.chaptersFrom, ColorTheme.chaptersFrom, block?_revalueAll] at hspoiled
    rw [ColorTheme.chaptersFrom, ColorTheme.chaptersFrom, ColorTheme.walkBlocks, ColorTheme.walkBlocks,
      block?_revalueAll]
    cases hblock : body.block? rule.name with
    | none =>
      rw [hblock] at hspoiled
      exact ih h hspoiled
    | some block =>
      rw [hblock] at hspoiled
      have hfirst := hspoiled.left
      obtain ⟨hrest, hfinal⟩ := ih (h.enter_spared hfirst) hspoiled.right
      exact ⟨.cons ⟨rfl, rfl, Chapter.spared_findings h hfirst⟩ hrest, hfinal⟩

end Stage.Alike

/-! ## Before the first block -/

section

variable {place : Span} {e : Expr}

theorem spared_outsideFindings (body : Body) :
    List.Forall₂ (Finding.Spared place) (outsideFindings body)
      (outsideFindings (revalueAll place e body)) := by
  rw [outsideFindings, outsideFindings, attributes_revalueAll, List.map_map,
    List.forall₂_map_left_iff, List.forall₂_map_right_iff, List.forall₂_same]
  refine fun a _ => .of_eq a.name_revalue ?_
  rw [Function.comp_apply, a.name_revalue]

theorem barredBlocks_revalue (table : BlockTable) (seen : List String) (blocks : List Block) :
    barredBlocks table seen (blocks.map (Block.revalue place e)) =
      (barredBlocks table seen blocks).map fun barred =>
        (barred.1.revalue place e, barred.2) := by
  induction blocks generalizing seen with
  | nil => rfl
  | cons block blocks ih =>
    have hname : (block.revalue place e).kind = block.kind := rfl
    rw [List.map_cons, barredBlocks, barredBlocks, hname]
    split
    · rw [ih, List.map_cons]
    · split
      · rw [ih, List.map_cons]
      · exact ih _

theorem spared_outerFindings (place : Span) (e : Expr) (table : BlockTable) (body : Body) :
    List.Forall₂ (Finding.Spared place) (Analysis.outerFindings table body)
      (Analysis.outerFindings table (revalueAll place e body)) := by
  refine List.rel_append (spared_outsideFindings body) ?_
  rw [blocks_revalueAll, barredBlocks_revalue, List.map_map, List.forall₂_map_left_iff,
    List.forall₂_map_right_iff, List.forall₂_same]
  exact fun barred _ => .of_eq rfl rfl

theorem spared_innerFindings (place : Span) (e : Expr) (block : Block) :
    List.Forall₂ (Finding.Spared place) (innerFindings block)
      (innerFindings (block.revalue place e)) := by
  have hblocks : (block.revalue place e).body.blocks =
      block.body.blocks.map (Block.revalue place e) := blocks_revalueAll place e block.body
  rw [innerFindings, innerFindings, hblocks, List.map_map, List.forall₂_map_left_iff,
    List.forall₂_map_right_iff, List.forall₂_same]
  exact fun inner _ => .of_eq rfl rfl

theorem sameName_metaVerdict {log other : Log} (h : log.Alike other) {a b : Attribute}
    (hname : b.name = a.name) :
    SameName [metaName, a.name.name] (metaVerdict log a) (metaVerdict other b) := by
  unfold metaVerdict
  dsimp only
  rw [hname, h.takes]
  split
  · exact .inl ⟨_, rfl, rfl⟩
  · right
    constructor
    · split <;> rfl
    · rw [← hname]
      split <;> rfl

theorem spared_noteFindings {log other : Log} (h : log.Alike other) (attributes : List Attribute)
    (hspoiled : Spoiled place (noteFindings log attributes)
      (noteFindings other (attributes.map (Attribute.revalue place e)))) :
    List.Forall₂ (Finding.Spared place) (noteFindings log attributes)
      (noteFindings other (attributes.map (Attribute.revalue place e))) := by
  induction attributes generalizing log other with
  | nil => exact .nil
  | cons a attributes ih =>
    rw [List.map_cons, noteFindings, noteFindings] at hspoiled ⊢
    have hfirst : Finding.Spared place ⟨[metaName], .assignment a, metaVerdict log a⟩
        ⟨[metaName], .assignment (a.revalue place e), metaVerdict other (a.revalue place e)⟩ := by
      refine .of_sameName a.name_revalue (sameName_metaVerdict h a.name_revalue) (fun hne => ?_)
        (hspoiled.mono (List.cons_subset_cons _ (List.nil_subset _))
          (List.cons_subset_cons _ (List.nil_subset _)))
      rw [Attribute.revalue_of_ne hne]
      exact metaVerdict_alike h a
    exact .cons hfirst (ih (h.concat hfirst.akin)
      (hspoiled.mono (List.subset_cons_self _ _) (List.subset_cons_self _ _)))

theorem spared_metaFindings {log other : Log} (h : log.Alike other) (block : Block)
    (hspoiled : Spoiled place (metaFindings log block)
      (metaFindings other (block.revalue place e))) :
    List.Forall₂ (Finding.Spared place) (metaFindings log block)
      (metaFindings other (block.revalue place e)) := by
  have hattributes : (block.revalue place e).body.attributes =
      block.body.attributes.map (Attribute.revalue place e) :=
    attributes_revalueAll place e block.body
  have hinner := spared_innerFindings place e block
  rw [metaFindings, metaFindings, hattributes] at hspoiled ⊢
  exact List.rel_append hinner
    (spared_noteFindings (h.append_akin (forall₂_akin hinner)) _ hspoiled.right)

end

namespace Analysis

variable {place : Span} {e : Expr} {table : BlockTable} {body : Body} {flaws : List Flaw}

theorem spared_openingFindings (hspoiled : Spoiled place (openingFindings table body)
      (openingFindings table (revalueAll place e body))) :
    List.Forall₂ (Finding.Spared place) (openingFindings table body)
      (openingFindings table (revalueAll place e body)) := by
  have houter := spared_outerFindings place e table body
  rw [openingFindings, openingFindings, block?_revalueAll] at hspoiled ⊢
  refine List.rel_append houter ?_
  cases hmeta : body.block? metaName with
  | none => exact .nil
  | some block =>
    rw [hmeta] at hspoiled
    have hinside := hspoiled.right
    rw [Option.map_some, Option.toList_some, Option.toList_some, List.flatMap_singleton,
      List.flatMap_singleton] at hinside ⊢
    exact spared_metaFindings (Log.Alike.append_akin (.refl []) (forall₂_akin houter)) block hinside

theorem hasPalette_revalueAll :
    HasPalette table (revalueAll place e body) ↔ HasPalette table body := by
  rw [HasPalette, HasPalette, block?_revalueAll, Option.isSome_map]

/-! ## The analyses -/

/-- The analyses go side by side, and differ in nothing but what they find at the place. -/
structure Beside (place : Span) (e : Expr) (table : BlockTable) (body : Body) : Prop where
  opening : List.Forall₂ (Finding.Spared place) (openingFindings table body)
    (openingFindings table (revalueAll place e body))
  chapters : List.Forall₂ (Chapter.Spared place e) (chapters table body)
    (chapters table (revalueAll place e body))
  stage : (finalStage table body).Alike (finalStage table (revalueAll place e body))

theorem beside_of_spoiled (h : HasPalette table body)
    (hspoiled : Spoiled place (findings table body) (findings table (revalueAll place e body))) :
    Beside place e table body := by
  have hopening := spared_openingFindings hspoiled.left
  have hlog : (openingLog table body).Alike (openingLog table (revalueAll place e body)) := by
    rw [← map_verdict_openingFindings, ← map_verdict_openingFindings]
    exact Log.Alike.append_akin (.refl []) (forall₂_akin hopening)
  have hstage : (Stage.mk (openingLog table body) [] []).Alike
      ⟨openingLog table (revalueAll place e body), [], []⟩ := ⟨hlog, rfl, rfl⟩
  have hchapters := hspoiled.right
  unfold chapters at hchapters
  rw [if_pos h, if_pos (hasPalette_revalueAll.2 h)] at hchapters
  obtain ⟨hspared, hfinal⟩ := hstage.spared hchapters
  refine ⟨hopening, ?_, hfinal⟩
  unfold chapters
  rwa [if_pos h, if_pos (hasPalette_revalueAll.2 h)]

end Analysis

/-! ## The log, by the places of the names -/

/-- The verdict of a finding, with the place of the name that it is about. -/
def Finding.marked (f : Finding) : Option Span × Verdict := (some f.item.name.span, f.verdict)

/-- The verdicts of a chapter, with the places of the names that they are about.  That the block is
not complete is about no item. -/
def Chapter.marked (c : Chapter) : List (Option Span × Verdict) :=
  c.findings.map Finding.marked ++ (completenessVerdicts c.rule c.block).map fun v => (none, v)

/-- The verdicts are about the same name, and they are the same if it is not the one at the
place. -/
structure SameElsewhere (place : Span) (x y : Option Span × Verdict) : Prop where
  name : y.1 = x.1
  elsewhere : x.1 ≠ some place → y.2 = x.2

theorem Finding.Spared.marked {place : Span} {f g : Finding} (h : f.Spared place g) :
    SameElsewhere place f.marked g.marked where
  name := congrArg (fun name : Ident => some name.span) h.name
  elsewhere hne := h.elsewhere fun heq => hne (congrArg some heq)

theorem Chapter.Spared.marked {place : Span} {e : Expr} {c other : Chapter}
    (h : c.Spared place e other) :
    List.Forall₂ (SameElsewhere place) c.marked other.marked := by
  rw [Chapter.marked, Chapter.marked, h.completeness]
  refine List.rel_append ?_ (List.forall₂_same.2 fun _ _ => ⟨rfl, fun _ => rfl⟩)
  rw [List.forall₂_map_left_iff, List.forall₂_map_right_iff]
  exact h.findings.imp fun _ _ hf => hf.marked

theorem eq_of_sameElsewhere {place : Span} {xs ys : List (Option Span × Verdict)}
    (h : List.Forall₂ (SameElsewhere place) xs ys) (hplace : place ∉ xs.filterMap Prod.fst) :
    ys = xs := by
  induction h with
  | nil => rfl
  | @cons x y xs ys hxy _ ih =>
    obtain ⟨mark, v⟩ := x
    have hne : mark ≠ some place := by
      rintro rfl
      exact hplace List.mem_cons_self
    have hrest : place ∉ xs.filterMap Prod.fst := fun hmem => hplace (by
      cases mark with
      | none => exact hmem
      | some span => exact List.mem_cons_of_mem span hmem)
    rw [ih hrest, Prod.ext hxy.name (hxy.elsewhere hne)]

/-- **Where one verdict at most is about the place, the logs are the same before and behind it.** -/
theorem exists_split_of_sameElsewhere {place : Span} {xs ys : List (Option Span × Verdict)}
    {v w : Verdict} (h : List.Forall₂ (SameElsewhere place) xs ys)
    (hnodup : (xs.filterMap Prod.fst).Nodup) (hv : (some place, v) ∈ xs)
    (hw : (some place, w) ∈ ys) :
    ∃ before behind, xs = before ++ (some place, v) :: behind ∧
      ys = before ++ (some place, w) :: behind := by
  induction h with
  | nil => cases hv
  | @cons x y xs ys hxy hrest ih =>
    obtain ⟨mark, u⟩ := x
    by_cases hmark : mark = some place
    · subst hmark
      have hfresh : place ∉ xs.filterMap Prod.fst := (List.nodup_cons.1 hnodup).1
      have hbehind : ys = xs := eq_of_sameElsewhere hrest hfresh
      have hnone (u : Verdict) : (some place, u) ∉ xs := fun hmem =>
        hfresh (List.mem_filterMap.2 ⟨_, hmem, rfl⟩)
      rw [hbehind] at hw ⊢
      refine ⟨[], xs, ?_, ?_⟩
      · rw [(List.mem_cons.1 hv).resolve_right (hnone v)]
        rfl
      · rw [(List.mem_cons.1 hw).resolve_right (hnone w)]
        rfl
    · have hfirst : y = (mark, u) := Prod.ext hxy.name (hxy.elsewhere hmark)
      have hother (u' : Verdict) : (some place, u') ≠ (mark, u) := fun heq =>
        hmark (Prod.mk.inj heq).1.symm
      have htail : (xs.filterMap Prod.fst).Nodup := by
        cases mark with
        | none => exact hnodup
        | some span => exact (List.nodup_cons.1 hnodup).2
      rw [hfirst] at hw ⊢
      obtain ⟨before, behind, hxs, hys⟩ := ih htail
        ((List.mem_cons.1 hv).resolve_left (hother v)) ((List.mem_cons.1 hw).resolve_left (hother w))
      exact ⟨(mark, u) :: before, behind, by rw [hxs]; rfl, by rw [hys]; rfl⟩

namespace Analysis

variable {place : Span} {e : Expr} {table : BlockTable} {body : Body} {flaws : List Flaw}

/-- The verdicts of the log, with the places of the names that they are about. -/
def marked (table : BlockTable) (body : Body) : List (Option Span × Verdict) :=
  (openingFindings table body).map Finding.marked ++ (chapters table body).flatMap Chapter.marked

theorem map_snd_marked (h : HasPalette table body) (flaws : List Flaw) :
    (marked table body).map Prod.snd = (ofBody table body flaws).log := by
  have hchapter (c : Chapter) : c.marked.map Prod.snd = c.verdicts := by
    rw [c.verdicts_eq, Chapter.marked, List.map_append, List.map_map, List.map_map]
    exact congrArg (_ ++ ·) (List.map_id _)
  rw [log_of_hasPalette h, marked, List.map_append, List.map_map, List.map_flatMap,
    ← map_verdict_openingFindings]
  simp only [hchapter]
  rfl

theorem filterMap_fst_marked (table : BlockTable) (body : Body) :
    (marked table body).filterMap Prod.fst =
      (findings table body).map fun f => f.item.name.span := by
  have hfindings (fs : List Finding) : (fs.map Finding.marked).filterMap Prod.fst =
      fs.map fun f => f.item.name.span := by
    rw [List.filterMap_map, ← List.filterMap_eq_map]
    rfl
  have hchapter (c : Chapter) : c.marked.filterMap Prod.fst =
      c.findings.map fun f => f.item.name.span := by
    rw [Chapter.marked, List.filterMap_append, hfindings, List.filterMap_map]
    have hnone : (completenessVerdicts c.rule c.block).filterMap
        (Prod.fst ∘ fun v => ((none, v) : Option Span × Verdict)) = [] :=
      List.filterMap_eq_nil_iff.2 fun _ _ => rfl
    rw [hnone, List.append_nil]
  rw [marked, List.filterMap_append, hfindings, List.filterMap_flatMap, findings, List.map_append,
    List.map_flatMap]
  simp only [hchapter]

theorem marked_mem {f : Finding} (hf : f ∈ findings table body) : f.marked ∈ marked table body := by
  rcases List.mem_append.1 hf with hf | hf
  · exact List.mem_append_left _ (List.mem_map_of_mem hf)
  · obtain ⟨c, hc, hf⟩ := List.mem_flatMap.1 hf
    exact List.mem_append_right _ (List.mem_flatMap.2
      ⟨c, hc, List.mem_append_left _ (List.mem_map_of_mem hf)⟩)

namespace Beside

theorem findings (h : Beside place e table body) :
    List.Forall₂ (Finding.Spared place) (findings table body)
      (findings table (revalueAll place e body)) :=
  List.rel_append h.opening (List.rel_flatMap h.chapters fun _ _ hc => hc.findings)

theorem marked (h : Beside place e table body) :
    List.Forall₂ (SameElsewhere place) (marked table body)
      (marked table (revalueAll place e body)) := by
  refine List.rel_append ?_ (List.rel_flatMap h.chapters fun _ _ hc => hc.marked)
  rw [List.forall₂_map_left_iff, List.forall₂_map_right_iff]
  exact h.opening.imp fun _ _ hf => hf.marked

/-- What the walk or the notes ask of the log, it answers in the same way. -/
theorem filterMap_log (h : Beside place e table body) (hpalette : HasPalette table body)
    {α : Type} (read : Verdict → Option α) (hread : ∀ d, read (.incomplete d) = none)
    (hsame : ∀ f g : Finding, f.Spared place g → read g.verdict = read f.verdict) :
    (ofBody table (revalueAll place e body) flaws).log.filterMap read =
      (ofBody table body flaws).log.filterMap read := by
  rw [Analysis.filterMap_log hpalette read fun d _ => hread d,
    Analysis.filterMap_log (hasPalette_revalueAll.2 hpalette) read fun d _ => hread d]
  have hfindings := h.findings
  revert hfindings
  generalize Analysis.findings table body = fs
  generalize Analysis.findings table (revalueAll place e body) = gs
  intro hfindings
  induction hfindings with
  | nil => rfl
  | cons hf _ ih => rw [List.filterMap_cons, List.filterMap_cons, hsame _ _ hf, ih]

end Beside

/-- The analyses agree in all but one diagnostic: where the first reports `d`, the second reports
`d'`. -/
structure AgreeBut (d d' : Diagnostic) (a b : Analysis) : Prop where
  scopes : b.scopes = a.scopes
  styles : b.styles = a.styles
  notes : b.notes = a.notes
  symbols : b.symbols = a.symbols
  colors : b.colors = a.colors
  diagnostics : ∃ before behind,
    a.diagnostics = before ++ d :: behind ∧ b.diagnostics = before ++ d' :: behind

theorem distinct_findings (hregular : Regular table body)
    (hnames : ((spreadAll body).map fun i => i.name.span).Nodup) :
    ((findings table body).map fun f => f.item.name.span).Nodup :=
  (List.nodup_append.1 (nodup_findings_of_nodup hregular hnames)).2.1

theorem regular_revalueAll (place : Span) (e : Expr) (h : Regular table body) : Regular table (revalueAll place e body) :=
  ⟨h.names, h.noMeta, hasPalette_revalueAll.2 h.palette⟩

theorem nodup_names_revalueAll (h : ((spreadAll body).map fun i => i.name.span).Nodup) :
    ((spreadAll (revalueAll place e body)).map fun i => i.name.span).Nodup := by
  rw [spreadAll_revalueAll, List.map_map]
  exact (List.map_congr_left fun (i : Item) _ => congrArg Ident.span i.name_revalue).symm ▸ h

/-- The attribute itself has the value. -/
theorem eq_of_mem_revalueAll {a : Attribute} {item : Item}
    (hnames : ((spreadAll body).map fun i => i.name.span).Nodup)
    (ha : .assignment a ∈ spreadAll body) (hitem : item ∈ spreadAll (revalueAll a.name.span e body))
    (hname : item.name.span = a.name.span) : item = .assignment { a with value := e } := by
  rw [spreadAll_revalueAll] at hitem
  obtain ⟨before, hbefore, rfl⟩ := List.mem_map.1 hitem
  rw [Item.name_revalue] at hname
  obtain rfl : before = .assignment a := List.inj_on_of_nodup_map hnames hbefore ha hname
  rw [Item.revalue, Attribute.revalue, if_pos rfl]

/-- **An attribute that is rejected in both documents has no part in the results but its own
diagnostic.** -/
theorem agreeBut_of_rejected (hregular : Regular table body)
    (hnames : ((spreadAll body).map fun i => i.name.span).Nodup) {f g : Finding}
    {taken taken' : Option Path} {d d' : Diagnostic} (hf : f ∈ findings table body)
    (hg : g ∈ findings table (revalueAll place e body)) (hfplace : f.item.name.span = place)
    (hgplace : g.item.name.span = place) (hfrejected : f.verdict = .rejected taken d)
    (hgrejected : g.verdict = .rejected taken' d') (flaws : List Flaw) :
    AgreeBut d d' (ofBody table body flaws) (ofBody table (revalueAll place e body) flaws) := by
  have hpalette := hregular.palette
  have hpalette' : HasPalette table (revalueAll place e body) := hasPalette_revalueAll.2 hpalette
  have hdistinct := distinct_findings hregular hnames
  have hdistinct' := distinct_findings (regular_revalueAll place e hregular)
    (nodup_names_revalueAll hnames)
  have hbeside : Beside place e table body := by
    refine beside_of_spoiled hpalette (.inr ⟨fun f' hf' hplace => ?_, fun g' hg' hplace => ?_⟩)
    · rw [List.inj_on_of_nodup_map hdistinct hf' hf (hplace.trans hfplace.symm)]
      exact ⟨taken, d, hfrejected⟩
    · rw [List.inj_on_of_nodup_map hdistinct' hg' hg (hplace.trans hgplace.symm)]
      exact ⟨taken', d', hgrejected⟩
  constructor
  case scopes =>
    rw [ofBody_of_hasPalette hpalette, ofBody_of_hasPalette hpalette']
    exact hbeside.stage.scopes
  case styles =>
    rw [ofBody_of_hasPalette hpalette, ofBody_of_hasPalette hpalette']
    exact hbeside.stage.styles
  case notes => exact hbeside.filterMap_log hpalette _ (fun _ => rfl) fun _ _ h => h.note
  case symbols =>
    rw [symbols, symbols,
      hbeside.filterMap_log hpalette _ (fun _ => rfl) fun _ _ h => h.akin.symbol]
  case colors =>
    exact hbeside.filterMap_log hpalette _ (fun _ => rfl) fun _ _ h => h.akin.location
  case diagnostics =>
    have hfmarked := marked_mem hf
    have hgmarked := marked_mem hg
    rw [Finding.marked, hfplace, hfrejected] at hfmarked
    rw [Finding.marked, hgplace, hgrejected] at hgmarked
    obtain ⟨before, behind, hlog, hlog'⟩ := exists_split_of_sameElsewhere hbeside.marked
      (by rwa [filterMap_fst_marked]) hfmarked hgmarked
    refine ⟨flaws.map Diagnostic.ofFlaw ++ (before.map Prod.snd).filterMap Verdict.diagnostic?,
      (behind.map Prod.snd).filterMap Verdict.diagnostic?, ?_, ?_⟩
    · rw [diagnostics_ofBody, if_pos hpalette, ← map_snd_marked hpalette, hlog]
      simp [Verdict.diagnostic?]
    · rw [diagnostics_ofBody, if_pos hpalette', ← map_snd_marked hpalette', hlog']
      simp [Verdict.diagnostic?]

/-- Without a palette, no value has a part in anything. -/
theorem ofBody_revalueAll_of_not_hasPalette (h : ¬ HasPalette table body) (flaws : List Flaw) :
    ofBody table (revalueAll place e body) flaws = ofBody table body flaws := by
  have houtside : outsideVerdicts (revalueAll place e body) = outsideVerdicts body := by
    rw [outsideVerdicts, outsideVerdicts, attributes_revalueAll, List.map_map]
    refine List.map_congr_left fun a _ => ?_
    rw [Function.comp_apply, a.name_revalue]
  have hbarred : blockVerdicts table [] (Body.blocks (revalueAll place e body)) =
      blockVerdicts table [] body.blocks := by
    rw [← map_verdict_barredBlocks, ← map_verdict_barredBlocks, blocks_revalueAll,
      barredBlocks_revalue, List.map_map, List.map_map, List.map_map]
    rfl
  rw [ofBody_of_not_hasPalette h, ofBody_of_not_hasPalette (mt hasPalette_revalueAll.1 h),
    houtside, hbarred]

/-- **An attribute that is rejected because of its name has no part in the results with its
value.** -/
theorem ofBody_revalueAll_of_named (hregular : Regular table body)
    (hnames : ((spreadAll body).map fun i => i.name.span).Nodup) {f : Finding} {d : Diagnostic}
    (hf : f ∈ findings table body) (hplace : f.item.name.span = place)
    (hrejected : f.verdict = .rejected none d) (flaws : List Flaw) :
    ofBody table (revalueAll place e body) flaws = ofBody table body flaws := by
  have hpalette := hregular.palette
  have hpalette' : HasPalette table (revalueAll place e body) := hasPalette_revalueAll.2 hpalette
  have hdistinct := distinct_findings hregular hnames
  have hbeside : Beside place e table body := by
    refine beside_of_spoiled hpalette (.inl fun f' hf' hplace' => ?_)
    rw [List.inj_on_of_nodup_map hdistinct hf' hf (hplace'.trans hplace.symm)]
    exact ⟨d, hrejected⟩
  have hmarked : marked table (revalueAll place e body) = marked table body := by
    obtain ⟨g, hg, hspared⟩ := exists_of_forall₂ hbeside.findings hf
    have hfmarked := marked_mem hf
    have hgmarked := marked_mem hg
    rw [Finding.marked, hplace] at hfmarked
    rw [Finding.marked, hspared.name, hplace, hspared.named d hrejected] at hgmarked
    obtain ⟨before, behind, hlog, hlog'⟩ := exists_split_of_sameElsewhere hbeside.marked
      (by rwa [filterMap_fst_marked]) hfmarked hgmarked
    rw [hlog, hlog']
  have hlog : (finalStage table (revalueAll place e body)).log = (finalStage table body).log := by
    have hsame := map_snd_marked hpalette' flaws
    rwa [hmarked, map_snd_marked hpalette flaws, ofBody_of_hasPalette hpalette,
      ofBody_of_hasPalette hpalette', eq_comm] at hsame
  rw [ofBody_of_hasPalette hpalette, ofBody_of_hasPalette hpalette', hlog, hbeside.stage.scopes,
    hbeside.stage.styles]

/-- An item is rejected because of its name, and takes no path then, or because of its value. -/
theorem named_or_valued {f : Finding} {taken : Option Path} {d : Diagnostic}
    (hf : f ∈ findings table body) (hrejected : f.verdict = .rejected taken d) :
    taken = none ∨ ∃ a, f.item = .assignment a ∧ d.span = a.value.span := by
  rcases List.mem_append.1 hf with hf | hf
  · rcases mem_openingFindings.1 hf with hf | ⟨block, -, hf⟩
    · rcases mem_outerFindings.1 hf with ⟨a, -, rfl⟩ | ⟨barred, -, rfl⟩
      · cases hrejected
        exact .inl rfl
      · cases hrejected
        exact .inl rfl
    · rcases mem_metaFindings.1 hf with ⟨inner, -, rfl⟩ | hf
      · cases hrejected
        exact .inl rfl
      · obtain ⟨a, -, log, rfl⟩ := mem_noteFindings hf
        dsimp only at hrejected
        unfold metaVerdict at hrejected
        dsimp only at hrejected
        split at hrejected
        · cases hrejected
          exact .inl rfl
        · split at hrejected
          · cases hrejected
          · cases hrejected
            exact .inr ⟨a, rfl, rfl⟩
  · obtain ⟨c, -, hf⟩ := List.mem_flatMap.1 hf
    rcases List.mem_cons.1 hf with rfl | hf
    · cases hrejected
    · obtain ⟨v, hv, rfl⟩ := List.mem_map.1 hf
      obtain ⟨p, hp⟩ := c.tour.exists_judged hv
      dsimp only [Visit.finding] at hrejected
      rw [hrejected] at hp
      exact hp.named_or_valued

/-- **A broken attribute affects nothing but itself.**  In every source and under every table, take
an attribute that is rejected with the diagnostic `d`, and give it any other value.  If it was
rejected because of its name, the analysis is the same.  If it is rejected again, the analyses agree
in all but its own diagnostic, in whose place there is the new one. -/
theorem confined (source : String) (hnames : (table.map BlockRule.name).Nodup)
    (hmeta : metaName ∉ table.map BlockRule.name) {f : Finding} {a : Attribute}
    {taken : Option Path} {d : Diagnostic} (hf : f ∈ findings table (Body.read source).items)
    (hitem : f.item = .assignment a) (hrejected : f.verdict = .rejected taken d) (e : Expr)
    (flaws : List Flaw) :
    (d.span = a.name.span →
      ofBody table (revalueAll a.name.span e (Body.read source).items) flaws =
        ofBody table (Body.read source).items flaws) ∧
    (HasPalette table (Body.read source).items →
      ∀ g ∈ findings table (revalueAll a.name.span e (Body.read source).items),
      g.item = .assignment { a with value := e } →
      ∀ taken' d', g.verdict = .rejected taken' d' →
      (ofBody table (Body.read source).items flaws).AgreeBut d d'
        (ofBody table (revalueAll a.name.span e (Body.read source).items) flaws)) := by
  have hplace : f.item.name.span = a.name.span := by rw [hitem]; rfl
  constructor
  · intro hspan
    by_cases hpalette : HasPalette table (Body.read source).items
    · -- an error because of the value would stand there, and that is behind the name
      have hnone : taken = none := by
        refine (named_or_valued hf hrejected).resolve_right ?_
        rintro ⟨b, hb, hvalue⟩
        obtain rfl : a = b := Item.assignment.inj (hitem.symm.trans hb)
        have hmem := mem_spreadAll_of_mem_findings hf
        rw [hitem] at hmem
        cases Body.placed_of_mem hmem with
        | assignment fits named value coversName coversValue behind =>
          have hnonempty := named.nonempty
          rw [← hspan, hvalue] at hnonempty behind
          exact Nat.lt_irrefl _ (Nat.lt_of_lt_of_le hnonempty behind)
      rw [hnone] at hrejected
      exact ofBody_revalueAll_of_named ⟨hnames, hmeta, hpalette⟩ (nodup_names source) hf hplace
        hrejected flaws
    · exact ofBody_revalueAll_of_not_hasPalette hpalette flaws
  · intro hpalette g hg hgitem taken' d' hgrejected
    exact agreeBut_of_rejected ⟨hnames, hmeta, hpalette⟩ (nodup_names source) hf hg hplace
      (by rw [hgitem]; rfl) hrejected hgrejected flaws

/-- An attribute that refers to nothing, and a reference to it. -/
def brokenSource : String := "palette \x7b\n  x = palette.y\n  z = palette.x\n\x7d\n"

theorem confined_brokenSource :
    ∃ f ∈ findings .standard (Body.read brokenSource).items, ∃ a d d',
      f.item = .assignment a ∧ f.verdict = .rejected (some ["palette", "x"]) d ∧ d ≠ d' ∧
      (ofBody .standard (Body.read brokenSource).items []).AgreeBut d d'
        (ofBody .standard (revalueAll a.name.span (.truth true ⟨16, 25⟩)
          (Body.read brokenSource).items) []) := by
  have hbroken : ∃ f ∈ findings .standard (Body.read brokenSource).items,
      f.item.name.span = ⟨12, 13⟩ ∧ f.verdict = .rejected (some ["palette", "x"])
        ⟨.unresolved (.unknownPath ["palette", "y"]), ⟨16, 25⟩⟩ := by
    decide +kernel
  have hagain : ∃ g ∈ findings .standard (revalueAll ⟨12, 13⟩ (.truth true ⟨16, 25⟩)
        (Body.read brokenSource).items),
      g.item.name.span = ⟨12, 13⟩ ∧ g.verdict = .rejected (some ["palette", "x"])
        ⟨.unresolved (.notAColor .truth), ⟨16, 25⟩⟩ := by
    decide +kernel
  obtain ⟨f, hf, hplace, hrejected⟩ := hbroken
  obtain ⟨g, hg, hgplace, hgrejected⟩ := hagain
  obtain ⟨a, hitem, -⟩ := (named_or_valued hf hrejected).resolve_left nofun
  rw [hitem] at hplace
  have hname : a.name.span = ⟨12, 13⟩ := hplace
  have hmem := mem_spreadAll_of_mem_findings hf
  rw [hitem] at hmem
  rw [← hname] at hg hgplace
  have hgitem := eq_of_mem_revalueAll (nodup_names brokenSource) hmem
    (mem_spreadAll_of_mem_findings hg) hgplace
  exact ⟨f, hf, a, _, _, hitem, hrejected, by decide,
    (confined brokenSource (by decide) (by decide) hf hitem hrejected _ []).2
      (by decide +kernel) g hg hgitem _ _ hgrejected⟩

end Analysis

end ColorTheme
