import ColorTheme.Proofs.Account.Yield
import ColorTheme.Proofs.Item.Naming
import ColorTheme.Proofs.Walk.Fixpoint

/-!
# Trees, symbols and colors describe the same definitions

* `Analysis.colorAt_scopes` : the colored nodes of the trees are those of the attributes that are
  visited and resolve.
* `Analysis.colors_eq` : the colors of an analysis, in the order of the visits.
* `Analysis.indexed` : colors and colored nodes belong to each other one by one, each symbol stands
  in the source where it says, and no two symbols stand at the same place.
-/

set_option autoImplicit false

namespace ColorTheme

/-- The own color of the node at a path, the first name of which is that of a block. -/
def Scopes.colorAt (scopes : Scopes) : Path → Option Color
  | [] => none
  | name :: rest => (scopes.get? name).bind (·.colorAt rest)

section

variable {α β γ : Type} {xs : List α} {f g : α → Option β}

/-- What is chosen from a list by two choices, the second of which chooses all that the first
does. -/
theorem filterMap_sublist_filterMap (h : ∀ x ∈ xs, ∀ y, f x = some y → g x = some y) :
    (xs.filterMap f).Sublist (xs.filterMap g) := by
  induction xs with
  | nil => exact .slnil
  | cons x xs ih =>
    have ih := ih fun z hz => h z (List.mem_cons_of_mem x hz)
    cases hx : f x with
    | none =>
      rw [List.filterMap_cons_none hx]
      cases hy : g x with
      | none => rwa [List.filterMap_cons_none hy]
      | some y => rw [List.filterMap_cons_some hy]; exact .cons y ih
    | some y =>
      rw [List.filterMap_cons_some hx, List.filterMap_cons_some (h x List.mem_cons_self y hx)]
      exact .cons_cons y ih

/-- What is chosen from a list, beside something else that is known of each thing chosen from. -/
theorem forall₂_filterMap_map {R : β → γ → Prop} {k : α → γ}
    (h : ∀ x ∈ xs, ∀ y, f x = some y → R y (k x)) :
    List.Forall₂ R (xs.filterMap f) (xs.filterMap fun x => (f x).map fun _ => k x) := by
  induction xs with
  | nil => exact .nil
  | cons x xs ih =>
    have ih := ih fun z hz => h z (List.mem_cons_of_mem x hz)
    cases hx : f x with
    | none =>
      rw [List.filterMap_cons_none hx, List.filterMap_cons_none (by rw [hx]; rfl)]
      exact ih
    | some y =>
      rw [List.filterMap_cons_some hx, List.filterMap_cons_some (by rw [hx]; rfl)]
      exact .cons (h x List.mem_cons_self y hx) ih

end

namespace Analysis

variable {table : BlockTable} {body : Body} {flaws : List Flaw} {v w : Visit}

/-! ## Colors and nodes -/

/-- **The colored nodes are those of the attributes that resolve.** -/
theorem colorAt_scopes (hnames : (table.map BlockRule.name).Nodup) {path : Path} {c : Color} :
    (ofBody table body flaws).scopes.colorAt path = some c ↔
      ∃ v ∈ visits table body, (∃ a, v.ResolvesTo a c) ∧ v.nodePath = path := by
  constructor
  · intro h
    cases path with
    | nil => cases h
    | cons name rest =>
      obtain ⟨tree, htree, hc⟩ := Option.bind_eq_some_iff.1 h
      obtain ⟨e, he, rfl, rfl⟩ := (get?_scopes hnames _ _).1 htree
      obtain ⟨v, hv, ha, hpath⟩ := (e.tour.colorAt_iff rfl rest c).1 hc
      exact ⟨v, mem_visits.2 ⟨e, he, hv⟩, ha, hpath⟩
  · rintro ⟨v, hv, ⟨a, ha⟩, rfl⟩
    obtain ⟨e, he, hvisit⟩ := mem_visits.1 hv
    have hpath := e.tour.nodePath_eq hvisit
    have hfinished : ∃ tree, (ofBody table body flaws).scopes.get? v.rule.name = some tree ∧
      tree.colorAt v.nodePath.tail = some c := colorAt_finished hnames hv ha
    obtain ⟨tree, htree, hc⟩ := hfinished
    rw [e.tour.rule v hvisit] at htree
    rw [hpath]
    exact Option.bind_eq_some_iff.2 ⟨tree, htree, hc⟩

/-- **The colors of an analysis, in the order of the visits.** -/
theorem colors_eq (table : BlockTable) (body : Body) (flaws : List Flaw) :
    (ofBody table body flaws).colors =
      (visits table body).filterMap fun v => v.verdict.location? := by
  by_cases h : HasPalette table body
  · have hopening : (openingFindings table body).filterMap (fun f => f.verdict.location?) = [] := by
      refine List.filterMap_eq_nil_iff.2 fun f hf => ?_
      rcases noted_or_rejected hf with ⟨a, text, -, -, -, hverdict⟩ | ⟨taken, d, hverdict, -⟩ <;>
        rw [hverdict] <;> rfl
    have hchapter : ∀ e : Chapter, e.findings.filterMap (fun f => f.verdict.location?) =
        e.visits.filterMap fun v => v.verdict.location? := by
      intro e
      rw [Chapter.findings, List.filterMap_cons_none rfl, List.filterMap_map]
      rfl
    rw [colors, filterMap_log h _ (fun _ _ => rfl), findings, List.filterMap_append, hopening,
      List.nil_append, visits, List.filterMap_flatMap, List.filterMap_flatMap]
    simp only [hchapter]
  · rw [colors, ofBody_of_not_hasPalette h, visits, chapters, if_neg h]
    exact filterMap_outside (fun _ => rfl) table body

/-- No two visited attributes color the same node. -/
theorem pairwise_nodePath_ne (hnames : (table.map BlockRule.name).Nodup) (body : Body) :
    (visits table body).Pairwise fun v w => v.verdict.location?.isSome →
      w.verdict.location?.isSome → v.nodePath ≠ w.nodePath := by
  have hsub := (rule_chapters_sublist table body).map BlockRule.name
  rw [List.map_map] at hsub
  refine List.pairwise_flatMap.2 ⟨fun e he => ?_, ?_⟩
  · refine e.tour.taken_pairwise.imp_of_mem fun {v w} hv hw htaken hcolored hcolored' heq => ?_
    obtain ⟨location, hlocation⟩ := Option.isSome_iff_exists.1 hcolored
    obtain ⟨location', hlocation'⟩ := Option.isSome_iff_exists.1 hcolored'
    obtain ⟨a, ha, -⟩ := resolvesTo_of_location? (mem_visits.2 ⟨e, he, hv⟩) hlocation
    obtain ⟨b, hb, -⟩ := resolvesTo_of_location? (mem_visits.2 ⟨e, he, hw⟩) hlocation'
    obtain rfl := e.tour.eq_of_nodePath hv hw ha hb heq
    exact htaken v.path (by rw [ha.2]; rfl) (by rw [ha.2]; rfl)
  · refine (List.pairwise_map.1 (hnames.sublist hsub)).imp ?_
    intro e e' hne v hv w hw _ _ heq
    have hroot := e.tour.nodePath_eq hv
    rw [heq, e'.tour.nodePath_eq hw] at hroot
    exact hne (List.cons.inj hroot).1.symm

/-! ## Symbols -/

/-- What is reached stands in the body. -/
theorem within_of_reached {symbols : Entries Path Span} {enclosing : Path} {item : Item}
    (h : Reached symbols body enclosing item) : Within body enclosing item := by
  induction h with
  | top mem => exact .top mem
  | @inMeta block item first mem =>
    have hblock : block.item ∈ body := Body.mem_blocks.1 (List.mem_of_find?_eq_some first)
    have hinside := Within.inside (.top hblock) mem
    rw [Body.name_of_block? first] at hinside
    exact hinside
  | inside outer defined mem ih => exact ih.inside mem

/-- Each finding is on an item of the body. -/
theorem within_of_mem_findings (h : Regular table body) {f : Finding}
    (hf : f ∈ findings table body) : Within body f.enclosing f.item := by
  have hreached : Reached (ofBody table body []).symbols body f.enclosing f.item :=
    reached_of_mem_findings h hf
  exact within_of_reached hreached

/-- Where no palette is, nothing is defined. -/
theorem get?_symbols_of_not_hasPalette (h : ¬ HasPalette table body) (path : Path) :
    (ofBody table body flaws).symbols.get? path = none := by
  rw [symbols, ofBody_of_not_hasPalette h]
  dsimp only
  rw [filterMap_outside fun _ => rfl]
  rfl

/-! ## Places of values -/

/-- A color stands at the value of the attribute that is visited. -/
theorem start_of_location? (hv : v ∈ visits table body) {location : ColorLocation}
    (h : v.verdict.location? = some location) :
    v.item.valueStart? = some location.span.start := by
  obtain ⟨a, ha, hlocation⟩ := resolvesTo_of_location? hv h
  rw [ha.1, hlocation]
  rfl

/-- The visits are to items of the body, to each at most once, in the order of the table. -/
theorem subperm_visits (h : Regular table body) :
    ((visits table body).map Visit.item).Subperm (spreadAll body) := by
  have hfindings : ((visits table body).map Visit.item).Subperm
      ((findings table body).map Finding.item) := by
    refine .trans ?_ ((List.sublist_append_right _ _).map Finding.item).subperm
    rw [visits, List.map_flatMap, List.map_flatMap]
    refine subperm_flatMap fun e _ => List.Sublist.subperm ?_
    rw [Chapter.findings, List.map_cons, List.map_map]
    exact List.sublist_cons_self _ _
  exact hfindings.trans ((List.sublist_append_right _ _).subperm.trans (subperm_findings h))

theorem nodup_visitedStarts {source : String} (h : Regular table (Body.read source).items) :
    ((visits table (Body.read source).items).filterMap fun v => v.item.valueStart?).Nodup := by
  obtain ⟨items, hperm, hsub⟩ := subperm_visits h
  have hnodup := (Body.nodup_valueStarts source).sublist (hsub.filterMap _)
  have hmapped := ((hperm.filterMap Item.valueStart?).nodup_iff).1 hnodup
  rwa [List.filterMap_map] at hmapped

/-- **No two colors of a source stand at the same place.** -/
theorem nodup_colorSpans {source : String} (h : Regular table (Body.read source).items) :
    ((ofBody table (Body.read source).items flaws).colors.map ColorLocation.span).Nodup := by
  have hlocated : ((visits table (Body.read source).items).filterMap
      fun v => v.verdict.location?.map fun location => location.span.start).Nodup := by
    refine (nodup_visitedStarts h).sublist (filterMap_sublist_filterMap fun v hv start hstart => ?_)
    obtain ⟨location, hlocation, rfl⟩ := Option.map_eq_some_iff.1 hstart
    exact start_of_location? hv hlocation
  have hcolors : ((ofBody table (Body.read source).items flaws).colors.map
      fun location => location.span.start).Nodup := by
    rw [colors_eq, List.map_filterMap]
    exact hlocated
  rw [show (fun location : ColorLocation => location.span.start) =
    Span.start ∘ ColorLocation.span from rfl, ← List.map_map] at hcolors
  exact hcolors.of_map

/-! ## The index -/

/-- The location is that of the node: it has the color of the node, and it is the place of the
value of an attribute, the symbol of which is the path of the node, or if the attribute is called
`color`, that path and `color`. -/
structure Locates (a : Analysis) (body : Body) (location : ColorLocation) (node : Path) :
    Prop where
  color : a.scopes.colorAt node = some location.color
  value : ∃ enclosing assigned, Within body enclosing (.assignment assigned) ∧
    enclosing ++ [assigned.name.name] =
      (if assigned.name.name = colorKey then node ++ [colorKey] else node) ∧
    a.symbols.get? (enclosing ++ [assigned.name.name]) = some assigned.name.span ∧
    location.span = assigned.value.span ∧
    (location.isReference = true ↔ ∃ path, assigned.value.path? = some path)

/-- The trees, the symbols and the colors of an analysis describe the same definitions. -/
structure Indexed (a : Analysis) (source : String) : Prop where
  /-- The colored nodes, each once, belong to the colors one by one. -/
  colors : ∃ nodes : List Path, nodes.Nodup ∧
    (∀ node, node ∈ nodes ↔ (a.scopes.colorAt node).isSome) ∧
    List.Forall₂ (a.Locates (Body.read source).items) a.colors nodes
  /-- No two colors stand at the same place. -/
  places : (a.colors.map ColorLocation.span).Nodup
  /-- A symbol stands at the name of an item: its path are the names of the blocks around the item
  and that name, which is the text at this place. -/
  symbols : ∀ path name, a.symbols.get? path = some name →
    ∃ enclosing item, Within (Body.read source).items enclosing item ∧
      path = enclosing ++ [item.name.name] ∧ name = item.name.span ∧
      name.slice? source.toList = some item.name.name.toList
  /-- No two symbols stand at the same place. -/
  apart : ∀ path other name, a.symbols.get? path = some name → a.symbols.get? other = some name →
    path = other

theorem isReference_iff (e : Expr) : e.isReference = true ↔ ∃ path, e.path? = some path := by
  cases e <;> simp [Expr.isReference, Expr.path?]

/-- What a visit resolves is located at its node. -/
theorem locates_of_location? (h : Regular table body) (hproper : table.Proper)
    (hv : v ∈ visits table body) {location : ColorLocation}
    (hlocation : v.verdict.location? = some location) :
    (ofBody table body flaws).Locates body location v.nodePath := by
  obtain ⟨a, ha, heq⟩ := resolvesTo_of_location? hv hlocation
  obtain ⟨e, he, hvisit⟩ := mem_visits.1 hv
  have hf := finding_mem_of_visit he hvisit
  have hwithin := within_of_mem_findings h hf
  have hitem : v.finding.item = .assignment a := ha.1
  have hpath : v.enclosing ++ [a.name.name] = v.path := by rw [Visit.path, ha.1]; rfl
  refine ⟨(colorAt_scopes h.names).2 ⟨v, hv, ⟨a, ha⟩, rfl⟩, v.enclosing, a, ?_, ?_, ?_, ?_, ?_⟩
  · rw [← hitem]
    exact hwithin
  · rw [hpath]
    have hrule := hproper.reserves e.rule (rule_mem_of_mem_chapters he)
    have hown := e.tour.path_eq hrule hvisit ha
    rwa [ha.1] at hown
  · refine (get?_symbols h).2 ⟨v.finding, hf, ?_⟩
    show v.verdict.symbol? = _
    rw [ha.2, hpath]
    rfl
  · rw [heq]
  · rw [heq]
    exact isReference_iff a.value

theorem mem_nodes_iff (hnames : (table.map BlockRule.name).Nodup) {node : Path} :
    (node ∈ (visits table body).filterMap fun v => v.verdict.location?.map fun _ => v.nodePath) ↔
      ((ofBody table body flaws).scopes.colorAt node).isSome := by
  rw [List.mem_filterMap, Option.isSome_iff_exists]
  constructor
  · rintro ⟨v, hv, hnode⟩
    obtain ⟨location, hlocation, rfl⟩ := Option.map_eq_some_iff.1 hnode
    obtain ⟨a, ha, -⟩ := resolvesTo_of_location? hv hlocation
    exact ⟨location.color, (colorAt_scopes hnames).2 ⟨v, hv, ⟨a, ha⟩, rfl⟩⟩
  · rintro ⟨c, hc⟩
    obtain ⟨v, hv, ⟨a, ha⟩, rfl⟩ := (colorAt_scopes hnames).1 hc
    exact ⟨v, hv, by rw [ha.2]; rfl⟩

theorem nodup_nodes (hnames : (table.map BlockRule.name).Nodup) (body : Body) :
    ((visits table body).filterMap
      fun v => v.verdict.location?.map fun _ => v.nodePath).Nodup := by
  rw [List.Nodup, List.pairwise_filterMap]
  refine (pairwise_nodePath_ne hnames body).imp fun {v w} hne node hnode other hother heq => ?_
  obtain ⟨location, hlocation, rfl⟩ := Option.map_eq_some_iff.1 hnode
  obtain ⟨location', hlocation', rfl⟩ := Option.map_eq_some_iff.1 hother
  exact hne (by rw [hlocation]; rfl) (by rw [hlocation']; rfl) heq

theorem indexed_of_regular {source : String} (h : Regular table (Body.read source).items)
    (hproper : table.Proper) : (ofBody table (Body.read source).items flaws).Indexed source where
  colors := by
    refine ⟨_, nodup_nodes h.names (Body.read source).items, fun node => mem_nodes_iff h.names, ?_⟩
    rw [colors_eq]
    exact forall₂_filterMap_map fun v hv location hlocation =>
      locates_of_location? h hproper hv hlocation
  places := nodup_colorSpans h
  symbols path name hname := by
    obtain ⟨f, hf, hsymbol⟩ := (get?_symbols h).1 hname
    obtain ⟨-, hpath, rfl⟩ := accepted_of_symbol? hf hsymbol
    have hwithin := within_of_mem_findings h hf
    exact ⟨f.enclosing, f.item, hwithin, hpath, rfl, Body.slice?_name hwithin.mem_spreadAll⟩
  apart path other name hpath hother := by
    obtain ⟨f, hf, hsymbol⟩ := (get?_symbols h).1 hpath
    obtain ⟨g, hg, hsymbol'⟩ := (get?_symbols h).1 hother
    obtain ⟨-, rfl, hname⟩ := accepted_of_symbol? hf hsymbol
    obtain ⟨-, rfl, hname'⟩ := accepted_of_symbol? hg hsymbol'
    have hnodup := (List.nodup_append.1 (nodup_findings h)).2.1
    rw [List.inj_on_of_nodup_map hnodup hf hg (hname.symm.trans hname')]

/-- Where no palette is, there is nothing to describe. -/
theorem indexed_of_not_hasPalette {source : String}
    (h : ¬ HasPalette table (Body.read source).items) :
    (ofBody table (Body.read source).items flaws).Indexed source := by
  have hcolors : (ofBody table (Body.read source).items flaws).colors = [] := by
    rw [colors_eq, visits, chapters, if_neg h]
    rfl
  have hnode (node : Path) :
      (ofBody table (Body.read source).items flaws).scopes.colorAt node = none := by
    rw [ofBody_of_not_hasPalette h]
    cases node <;> rfl
  refine ⟨⟨[], .nil, fun node => ?_, hcolors ▸ .nil⟩, hcolors ▸ .nil, ?_, ?_⟩
  · rw [hnode]
    simp
  · intro path name hname
    rw [get?_symbols_of_not_hasPalette h] at hname
    cases hname
  · intro path other name hname
    rw [get?_symbols_of_not_hasPalette h] at hname
    cases hname

/-- **Trees, symbols and colors describe the same definitions**, in the analysis of every source
under the standard table. -/
theorem indexed (source : String) : (ofSource .standard source).Indexed source := by
  by_cases h : HasPalette .standard (Body.read source).items
  · exact indexed_of_regular ⟨BlockTable.proper_standard.names, by decide, h⟩
      BlockTable.proper_standard
  · exact indexed_of_not_hasPalette h

end Analysis

end ColorTheme
