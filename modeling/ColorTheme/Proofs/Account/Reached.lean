import ColorTheme.Proofs.Account.Blocks
import ColorTheme.Proofs.Account.Symbols
import Mathlib.Data.List.Induction

/-!
# What an analysis reaches

* `Reached` : the items that an analysis reaches, by the blocks that it accepts.
* `covers_visitsOfItems` : the walk visits all items of a block, and of each block it opens.
* `Analysis.reached_of_mem_findings` : an item on which there is a finding is reached.
* `Analysis.found_of_reached` : there is a finding on each item of a source that is reached, the
  `meta` block excepted.
-/

set_option autoImplicit false

namespace ColorTheme

/-- The items that an analysis reaches, by the symbols that it ends with: those of the document,
those of the first `meta` block, and those of a reached block that is defined as a symbol. -/
inductive Reached (symbols : Entries Path Span) (body : Body) : Path → Item → Prop
  | top {item : Item} (mem : item ∈ body) : Reached symbols body [] item
  | inMeta {block : Block} {item : Item} (first : body.block? metaName = some block)
      (mem : item ∈ block.body) : Reached symbols body [metaName] item
  | inside {enclosing : Path} {block : Block} {item : Item}
      (outer : Reached symbols body enclosing block.item)
      (defined : symbols.get? (enclosing ++ [block.kind.name]) = some block.kind.span)
      (mem : item ∈ block.body) : Reached symbols body (enclosing ++ [block.kind.name]) item

/-! ## Nothing is left out -/

/-- The visits are to all of the items, and to all items of each block that they open. -/
structure Covers (enclosing : Path) (items : List Item) (visits : List Visit) : Prop where
  items : ∀ item ∈ items, ∃ v ∈ visits, v.enclosing = enclosing ∧ v.item = item
  opened : ∀ b ∈ visits, ∀ block : Block, b.item = block.item → ∀ path name,
    b.verdict = .opened path name → ∀ item ∈ block.body, ∃ v ∈ visits,
      v.enclosing = path ∧ v.item = item

theorem Covers.append {enclosing : Path} {i j : List Item} {a b : List Visit}
    (ha : Covers enclosing i a) (hb : Covers enclosing j b) :
    Covers enclosing (i ++ j) (a ++ b) where
  items item hitem := by
    rcases List.mem_append.1 hitem with hitem | hitem
    · obtain ⟨v, hv, hfound⟩ := ha.items item hitem
      exact ⟨v, List.mem_append_left b hv, hfound⟩
    · obtain ⟨v, hv, hfound⟩ := hb.items item hitem
      exact ⟨v, List.mem_append_right a hv, hfound⟩
  opened x hx block hblock path name hopened item hitem := by
    rcases List.mem_append.1 hx with hx | hx
    · obtain ⟨v, hv, hfound⟩ := ha.opened x hx block hblock path name hopened item hitem
      exact ⟨v, List.mem_append_left b hv, hfound⟩
    · obtain ⟨v, hv, hfound⟩ := hb.opened x hx block hblock path name hopened item hitem
      exact ⟨v, List.mem_append_right a hv, hfound⟩

/-- A visit that opens no block. -/
theorem Covers.singleton (v : Visit) (h : ∀ path name, v.verdict ≠ .opened path name) :
    Covers v.enclosing [v.item] [v] where
  items item hitem := ⟨v, List.mem_singleton_self v, rfl, (List.mem_singleton.1 hitem).symm⟩
  opened b hb block _ path name hopened := by
    rw [List.mem_singleton.1 hb] at hopened
    exact absurd hopened (h path name)

/-- A visit that opens a block, and the visits inside of it. -/
theorem Covers.cons {v : Visit} (block : Block) {path : Path} {name : Span}
    {visits : List Visit} (hitem : v.item = block.item) (hv : v.verdict = .opened path name)
    (h : Covers path block.body visits) : Covers v.enclosing [v.item] (v :: visits) where
  items item hmem := ⟨v, List.mem_cons_self, rfl, (List.mem_singleton.1 hmem).symm⟩
  opened b hb inner hinner path' name' hopened item hmem := by
    rcases List.mem_cons.1 hb with rfl | hb
    · have hbody : inner.body = block.body := by
        have heq := hinner.symm.trans hitem
        unfold Block.item at heq
        exact (Item.block.inj heq).2.1
      rw [hbody] at hmem
      rw [hv] at hopened
      cases hopened
      obtain ⟨w, hw, hfound⟩ := h.items item hmem
      exact ⟨w, List.mem_cons_of_mem b hw, hfound⟩
    · obtain ⟨w, hw, hfound⟩ := h.opened b hb inner hinner path' name' hopened item hmem
      exact ⟨w, List.mem_cons_of_mem v hw, hfound⟩

theorem attributeVerdict_ne_opened (frame : Frame) (p : Progress) (enclosing : Path)
    (a : Attribute) (path : Path) (name : Span) :
    attributeVerdict frame p enclosing a ≠ .opened path name := by
  intro heq
  have h := judged_attribute frame p enclosing a
  rw [heq] at h
  cases h

mutual

theorem covers_visitsOfItem (frame : Frame) : ∀ (enclosing : Path) (p : Progress) (item : Item),
    Covers enclosing [item] (visitsOfItem frame enclosing p item)
  | enclosing, p, .assignment a =>
    .singleton ⟨frame.rule, enclosing, .assignment a, _⟩
      (attributeVerdict_ne_opened frame p enclosing a)
  | enclosing, p, .block kind body span => by
    rw [visitsOfItem]
    cases h : groupVerdict frame.rule p.log enclosing kind with
    | opened path name =>
      have hbody := covers_visitsOfItems frame path (p.record frame.rule (.opened path name)) body
      exact Covers.cons (v := ⟨frame.rule, enclosing, .block kind body span, .opened path name⟩)
        ⟨kind, body, span⟩ rfl rfl hbody
    | colored _ _ _ | flagged _ _ _ _ | noted _ _ _ | rejected _ _ | incomplete _ =>
      exact .singleton ⟨frame.rule, enclosing, .block kind body span, _⟩ (by intro _ _ h; cases h)

theorem covers_visitsOfItems (frame : Frame) : ∀ (enclosing : Path) (p : Progress)
    (items : List Item), Covers enclosing items (visitsOfItems frame enclosing p items)
  | _, _, [] => ⟨by simp, by simp [visitsOfItems]⟩
  | enclosing, p, item :: items => by
    rw [visitsOfItems]
    exact (covers_visitsOfItem frame enclosing p item).append
      (covers_visitsOfItems frame enclosing (walkItem frame enclosing p item) items)

end

theorem Chapter.covers (c : Chapter) : Covers [c.rule.name] c.block.body c.visits :=
  covers_visitsOfItems c.frame [c.rule.name] c.start c.block.body

namespace Analysis

variable {table : BlockTable} {body : Body} {flaws : List Flaw} {f : Finding} {item : Item}

/-- A finding that defines a symbol is an accepted one. -/
theorem accepted_of_symbol? (hf : f ∈ findings table body) {path : Path} {name : Span}
    (h : f.verdict.symbol? = some (path, name)) :
    f.Accepted ∧ path = f.path ∧ name = f.item.name.span := by
  rcases accepted_or_rejected hf with haccepted | ⟨taken, d, hverdict, -⟩
  · have heq := haccepted
    unfold Finding.Accepted at heq
    rw [h] at heq
    cases heq
    exact ⟨haccepted, rfl, rfl⟩
  · rw [hverdict] at h
    cases h

theorem get?_symbols_of_accepted (h : Regular table body)
    (hf : f ∈ findings table body) (haccepted : f.Accepted) :
    (ofBody table body flaws).symbols.get? f.path = some f.item.name.span :=
  (get?_symbols h).2 ⟨f, hf, haccepted⟩

/-! ## What is found is reached -/

theorem reached_block (h : Regular table body) {c : Chapter}
    (hc : c ∈ chapters table body) (hitem : item ∈ c.block.body) :
    Reached (ofBody table body flaws).symbols body [c.rule.name] item := by
  have hblock := block?_of_mem_chapters hc
  have hname := Body.name_of_block? hblock
  have htop : Reached (ofBody table body flaws).symbols body [] c.block.item :=
    .top (Body.mem_blocks.1 (List.mem_of_find?_eq_some hblock))
  have hdefined : (ofBody table body flaws).symbols.get? ([] ++ [c.block.kind.name]) =
      some c.block.kind.span := by
    rw [hname]
    exact (get?_symbols h).2 ⟨_, finding_mem_of_chapter hc List.mem_cons_self, rfl⟩
  have hinside := Reached.inside htop hdefined hitem
  rw [hname] at hinside
  exact hinside

/-- The items of a block that is opened are reached if the block is. -/
theorem reached_of_opens (h : Regular table body) {b v : Visit}
    (hb : b.finding ∈ findings table body)
    (hreached : Reached (ofBody table body flaws).symbols body b.enclosing b.item)
    (hopens : b.Opens v) :
    Reached (ofBody table body flaws).symbols body v.enclosing v.item := by
  obtain ⟨kind, inner, span, name, hblock, hmem, hopened⟩ := hopens
  have hsymbol : b.finding.verdict.symbol? = some (v.enclosing, name) := by
    show b.verdict.symbol? = _
    rw [hopened]
    rfl
  obtain ⟨haccepted, henclosing, -⟩ := accepted_of_symbol? hb hsymbol
  have hdefined : (ofBody table body flaws).symbols.get? b.finding.path =
      some b.finding.item.name.span := get?_symbols_of_accepted h hb haccepted
  have hpath : b.finding.path = b.enclosing ++ [kind.name] := by
    show b.enclosing ++ [b.item.name.name] = _
    rw [hblock]
    rfl
  have hname : b.finding.item.name.span = kind.span := by
    show b.item.name.span = _
    rw [hblock]
    rfl
  have houter : Reached (ofBody table body flaws).symbols body b.enclosing
      (Block.item ⟨kind, inner, span⟩) := by
    rw [hblock] at hreached
    exact hreached
  rw [hpath, hname] at hdefined
  rw [henclosing, hpath]
  exact houter.inside hdefined hmem

/-- What the walk visits is reached: the induction is on the visits before. -/
theorem reached_of_visit (h : Regular table body) {c : Chapter}
    (hc : c ∈ chapters table body) {before behind : List Visit}
    (hvisits : c.visits = before ++ behind) :
    ∀ v ∈ before, Reached (ofBody table body flaws).symbols body v.enclosing v.item := by
  induction before using List.reverseRecOn generalizing behind with
  | nil => simp
  | append_singleton before w ih =>
    rw [List.append_assoc] at hvisits
    have ih := ih hvisits
    intro v hv
    rcases List.mem_append.1 hv with hv | hv
    · exact ih v hv
    · obtain rfl := List.mem_singleton.1 hv
      rcases c.tour.nested before v behind hvisits with ⟨henclosing, hitem⟩ | ⟨b, hb, hopens⟩
      · rw [henclosing]
        exact reached_block h hc hitem
      · have hbvisit : b ∈ c.visits := by
          rw [hvisits]
          exact List.mem_append_left _ hb
        exact reached_of_opens h (finding_mem_of_visit hc hbvisit) (ih b hb) hopens

theorem reached_of_mem_findings (h : Regular table body)
    (hf : f ∈ findings table body) :
    Reached (ofBody table body flaws).symbols body f.enclosing f.item := by
  rcases List.mem_append.1 hf with hf | hf
  · rcases mem_openingFindings.1 hf with hf | ⟨block, hblock, hf⟩
    · rcases mem_outerFindings.1 hf with ⟨a, ha, rfl⟩ | ⟨barred, hbarred, rfl⟩
      · exact .top (Body.mem_attributes.1 ha)
      · refine .top (Body.mem_blocks.1 ((perm_blocks h).mem_iff.2 ?_))
        exact List.mem_append_left _ (List.mem_map_of_mem hbarred)
    · rcases mem_metaFindings.1 hf with ⟨inner, hinner, rfl⟩ | hf
      · exact .inMeta hblock (Body.mem_blocks.1 hinner)
      · obtain ⟨a, ha, log, rfl⟩ := mem_noteFindings hf
        exact .inMeta hblock (Body.mem_attributes.1 ha)
  · obtain ⟨c, hc, hf⟩ := List.mem_flatMap.1 hf
    rcases List.mem_cons.1 hf with rfl | hf
    · exact .top (Body.mem_blocks.1 (List.mem_of_find?_eq_some (block?_of_mem_chapters hc)))
    · obtain ⟨v, hv, rfl⟩ := List.mem_map.1 hf
      exact reached_of_visit h hc (List.append_nil _).symm v hv

/-! ## What is reached is found -/

/-- There is a finding on the item. -/
def Found (table : BlockTable) (body : Body) (enclosing : Path) (item : Item) : Prop :=
  ∃ f ∈ findings table body, f.enclosing = enclosing ∧ f.item = item

/-- The item is the `meta` block that is entered. -/
def IsMeta (body : Body) (enclosing : Path) (item : Item) : Prop :=
  enclosing = [] ∧ ∃ block, body.block? metaName = some block ∧ item = block.item

theorem Found.of_outer {enclosing : Path} (hf : f ∈ outerFindings table body)
    (henclosing : f.enclosing = enclosing) (hitem : f.item = item) :
    Found table body enclosing item :=
  ⟨f, List.mem_append_left _ (mem_openingFindings.2 (.inl hf)), henclosing, hitem⟩

theorem found_of_mem (h : Regular table body) (hitem : item ∈ body) :
    IsMeta body [] item ∨ Found table body [] item := by
  cases item with
  | assignment a =>
    exact .inr (Found.of_outer
      (mem_outerFindings.2 (.inl ⟨a, Body.mem_attributes.2 hitem, rfl⟩)) rfl rfl)
  | block kind inner span =>
    have hblock : ⟨kind, inner, span⟩ ∈ body.blocks := Body.mem_blocks.2 hitem
    rcases List.mem_append.1 ((perm_blocks h).mem_iff.1 hblock) with hbarred | hentered
    · obtain ⟨barred, hbarred, heq⟩ := List.mem_map.1 hbarred
      exact .inr (Found.of_outer (mem_outerFindings.2 (.inr ⟨barred, hbarred, rfl⟩)) rfl
        (congrArg Block.item heq))
    · rcases List.mem_append.1 hentered with hmeta | hchapter
      · exact .inl ⟨rfl, _, Option.mem_toList.1 hmeta, rfl⟩
      · obtain ⟨c, hc, heq⟩ := List.mem_map.1 hchapter
        exact .inr ⟨_, finding_mem_of_chapter hc List.mem_cons_self, rfl,
          congrArg Block.item heq⟩

theorem found_inMeta {block : Block} (hblock : body.block? metaName = some block)
    (hitem : item ∈ block.body) : Found table body [metaName] item := by
  have hfound : ∀ f ∈ metaFindings ((outerFindings table body).map Finding.verdict) block,
      f ∈ findings table body := fun f hf =>
    List.mem_append_left _ (mem_openingFindings.2 (.inr ⟨block, hblock, hf⟩))
  cases item with
  | assignment a =>
    obtain ⟨f, hf, henclosing, hitem⟩ := exists_noteFinding
      ((outerFindings table body).map Finding.verdict ++
        (innerFindings block).map Finding.verdict) (Body.mem_attributes.2 hitem)
    exact ⟨f, hfound f (mem_metaFindings.2 (.inr hf)), henclosing, hitem⟩
  | block kind inner span =>
    have hinner : ⟨kind, inner, span⟩ ∈ block.body.blocks := Body.mem_blocks.2 hitem
    exact ⟨_, hfound _ (mem_metaFindings.2 (.inl ⟨_, hinner, rfl⟩)), rfl, rfl⟩

theorem Found.of_visit {c : Chapter} (hc : c ∈ chapters table body) {path : Path}
    (h : ∃ v ∈ c.visits, v.enclosing = path ∧ v.item = item) : Found table body path item := by
  obtain ⟨v, hv, henclosing, hitem⟩ := h
  exact ⟨v.finding, finding_mem_of_visit hc hv, henclosing, hitem⟩

theorem found_inChapter {c : Chapter} (hc : c ∈ chapters table body)
    (hitem : item ∈ c.block.body) : Found table body [c.block.kind.name] item := by
  rw [kind_of_mem_chapters hc]
  exact Found.of_visit hc (c.covers.items item hitem)

/-- The items of a visited block that is accepted are found. -/
theorem found_inVisit {c : Chapter} (hc : c ∈ chapters table body) {v : Visit}
    (hv : v ∈ c.visits) (haccepted : v.finding.Accepted) {block : Block}
    (hblock : v.item = block.item) (hitem : item ∈ block.body) :
    Found table body v.finding.path item := by
  obtain ⟨p, hp⟩ := c.tour.exists_judged hv
  rw [hblock] at hp
  have hopened : v.verdict = .opened v.finding.path v.item.name.span :=
    Judged.opened_of_symbol? hp haccepted
  exact Found.of_visit hc (c.covers.opened v hv block hblock _ _ hopened item hitem)

/-- The items of a block that is accepted are found. -/
theorem found_inside {block : Block} (hf : f ∈ findings table body) (haccepted : f.Accepted)
    (hblock : f.item = block.item) (hitem : item ∈ block.body) :
    Found table body f.path item := by
  rcases List.mem_append.1 hf with hf | hf
  · rcases noted_or_rejected hf with ⟨a, text, -, ha, -⟩ | ⟨taken, d, hverdict, -⟩
    · rw [hblock] at ha
      cases ha
    · unfold Finding.Accepted at haccepted
      rw [hverdict] at haccepted
      cases haccepted
  · obtain ⟨c, hc, hf⟩ := List.mem_flatMap.1 hf
    rcases List.mem_cons.1 hf with rfl | hf
    · have hbody : c.block.body = block.body := by
        unfold Block.item at hblock
        exact (Item.block.inj hblock).2.1
      exact found_inChapter hc (hbody ▸ hitem)
    · obtain ⟨v, hv, rfl⟩ := List.mem_map.1 hf
      exact found_inVisit hc hv haccepted hblock hitem

/-- **What is reached is found.** -/
theorem found_of_reached {source : String} (h : Regular table (Body.read source).items)
    {enclosing : Path} (hreached : Reached (ofBody table (Body.read source).items flaws).symbols
      (Body.read source).items enclosing item) :
    IsMeta (Body.read source).items enclosing item ∨
      Found table (Body.read source).items enclosing item := by
  have hnodup := nodup_findings h
  rw [List.nodup_append] at hnodup
  obtain ⟨-, hfindings, hmeta⟩ := hnodup
  induction hreached with
  | top hitem => exact found_of_mem h hitem
  | inMeta hblock hitem => exact .inr (found_inMeta hblock hitem)
  | @inside enclosing block item outer hdefined hitem ih =>
    obtain ⟨g, hg, hsymbol⟩ := (get?_symbols h).1 hdefined
    obtain ⟨haccepted, hpath, hname⟩ := accepted_of_symbol? hg hsymbol
    rcases ih with ⟨-, b, hb, heq⟩ | ⟨f, hf, henclosing, hblock⟩
    · -- the symbol would be at the name of the `meta` block, on which there is no finding
      have hkind : block.kind = b.kind := by
        unfold Block.item at heq
        exact (Item.block.inj heq).1
      refine absurd ?_ (hmeta b.kind.span (List.mem_map.2 ⟨b, Option.mem_toList.2 hb, rfl⟩)
        g.item.name.span (List.mem_map_of_mem hg))
      rw [← hkind, hname]
    · have hsame : f = g := by
        refine List.inj_on_of_nodup_map hfindings hf hg ?_
        rw [← hname, hblock]
        rfl
      subst hsame
      rw [hpath]
      exact .inr (found_inside hf haccepted hblock hitem)

end Analysis

end ColorTheme
