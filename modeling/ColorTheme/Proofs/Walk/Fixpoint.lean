import ColorTheme.Proofs.Account.Finding
import ColorTheme.Proofs.Node.Growth
import ColorTheme.Proofs.Walk.Visibility

/-!
# The finished trees are a fixpoint

A color is worked out while the tree of its block still grows.  Worked out again, against all
finished trees, it is the same.

* `Tour.below` : the tree of a block only grows, and no color in it changes.
* `Analysis.mem_colors_iff` : the colors of an analysis are those of the attributes it visits.
* `Analysis.resolve_finished` : every attribute resolves in the finished trees to the color that
  is written down for it.
-/

set_option autoImplicit false

namespace ColorTheme

/-- **The tree of a block only grows.** -/
theorem Tour.below {frame : Frame} {start : Progress} {items : List Item}
    {before behind : List Visit}
    (h : Tour frame start items (before ++ behind)) (hblank : start.tree = .blank) :
    (start.after frame.rule before).tree.Below
      (start.after frame.rule (before ++ behind)).tree where
  nodes path hpath := by
    rw [h.beginning.tree_after, hblank, Node.get?_painted_isSome] at hpath
    rw [h.tree_after, hblank, Node.get?_painted_isSome]
    rcases hpath with hroot | ⟨mark, hmark, hprefix⟩
    · exact .inl hroot
    · refine .inr ⟨mark, ?_, hprefix⟩
      rw [List.filterMap_append]
      exact List.mem_append_left _ hmark
  colors path c hc := by
    rw [h.beginning.colorAt_iff hblank] at hc
    rw [h.colorAt_iff hblank]
    obtain ⟨v, hv, hpainted⟩ := hc
    exact ⟨v, List.mem_append_left behind hv, hpainted⟩

/-! ## The colors of an analysis -/

namespace Analysis

variable {table : BlockTable} {body : Body} {flaws : List Flaw} {v : Visit} {a : Attribute}
  {c : Color}

theorem hasPalette_of_mem_visits (hv : v ∈ visits table body) : HasPalette table body := by
  obtain ⟨e, he, -⟩ := mem_visits.1 hv
  exact hasPalette_of_mem_chapters he

/-- Only visits to the blocks of the table resolve colors. -/
theorem mem_findings_location {f : Finding} {location : ColorLocation} :
    f ∈ findings table body ∧ f.verdict.location? = some location ↔
      ∃ v ∈ visits table body, v.finding = f ∧ v.verdict.location? = some location := by
  constructor
  · rintro ⟨hf, hlocation⟩
    rcases List.mem_append.1 hf with hf | hf
    · rcases noted_or_rejected hf with ⟨a, text, -, -, -, hverdict⟩ | ⟨taken, d, hverdict, -⟩ <;>
        rw [hverdict] at hlocation <;> cases hlocation
    · obtain ⟨e, he, hf⟩ := List.mem_flatMap.1 hf
      rcases List.mem_cons.1 hf with rfl | hf
      · cases hlocation
      · obtain ⟨v, hv, rfl⟩ := List.mem_map.1 hf
        exact ⟨v, mem_visits.2 ⟨e, he, hv⟩, rfl, hlocation⟩
  · rintro ⟨v, hv, rfl, hlocation⟩
    obtain ⟨e, he, hv⟩ := mem_visits.1 hv
    exact ⟨finding_mem_of_visit he hv, hlocation⟩

/-- A visit that resolves a color is to the attribute that the color comes from. -/
theorem resolvesTo_of_location? (hv : v ∈ visits table body) {location : ColorLocation}
    (h : v.verdict.location? = some location) :
    ∃ a, v.ResolvesTo a location.color ∧
      location = ⟨a.value.span, location.color, a.value.isReference⟩ := by
  obtain ⟨e, he, hvisit⟩ := mem_visits.1 hv
  cases hverdict : v.verdict <;> rw [hverdict] at h <;> cases h
  obtain ⟨a, ha, -, hlocation, -⟩ := e.tour.resolvesTo_of_colored hvisit hverdict
  exact ⟨a, ha, hlocation⟩

/-- **The colors of an analysis are those that its attributes resolve to.** -/
theorem mem_colors_iff (h : HasPalette table body) {location : ColorLocation} :
    location ∈ (ofBody table body flaws).colors ↔
      ∃ v ∈ visits table body, ∃ a, v.ResolvesTo a location.color ∧
        location = ⟨a.value.span, location.color, a.value.isReference⟩ := by
  rw [colors, filterMap_log h _ (fun _ _ => rfl), List.mem_filterMap]
  constructor
  · rintro ⟨f, hf, hlocation⟩
    obtain ⟨v, hv, -, hlocation⟩ := mem_findings_location.1 ⟨hf, hlocation⟩
    obtain ⟨a, ha, hlocation⟩ := resolvesTo_of_location? hv hlocation
    exact ⟨v, hv, a, ha, hlocation⟩
  · rintro ⟨v, hv, a, ha, hlocation⟩
    have hverdict : v.verdict.location? = some location := by
      rw [ha.2, ← hlocation]
      rfl
    obtain ⟨hf, hverdict⟩ := mem_findings_location.2 ⟨v, hv, rfl, hverdict⟩
    exact ⟨v.finding, hf, hverdict⟩

/-! ## The fixpoint -/

/-- What an item sees has grown into the finished trees. -/
theorem visible_below (hproper : table.Proper) {before behind : List Chapter} {chapter : Chapter}
    (hchapters : chapters table body = before ++ chapter :: behind) {earlier later : List Visit}
    (hvisits : chapter.visits = earlier ++ later) :
    (chapter.frame.visible (chapter.start.after chapter.rule earlier).tree).Below
      (ofBody table body flaws).scopes := by
  have hreserves : ∀ e ∈ chapters table body, e.tree.ReservesColor := fun e he =>
    e.tour.reservesColor rfl (hproper.reserves _ (rule_mem_of_mem_chapters he))
  intro name tree htree
  rcases (get?_visible hproper.names hchapters _ _ _).1 htree with
    ⟨e, he, hname, rfl⟩ | ⟨-, hname, rfl⟩
  · have hmem : e ∈ chapters table body := by rw [hchapters]; simp [he]
    exact ⟨e.tree, (get?_scopes hproper.names _ _).2 ⟨e, hmem, hname, rfl⟩, .refl _,
      hreserves e hmem⟩
  · have hmem : chapter ∈ chapters table body := by rw [hchapters]; simp
    have htour := chapter.tour
    rw [hvisits] at htour
    refine ⟨chapter.tree, (get?_scopes hproper.names _ _).2 ⟨chapter, hmem, hname.symm, rfl⟩, ?_,
      hreserves chapter hmem⟩
    have hbelow := htour.below rfl
    rw [← hvisits] at hbelow
    exact hbelow

theorem resolve_finished_of_proper (hproper : table.Proper) (hv : v ∈ visits table body)
    (h : v.ResolvesTo a c) : (ofBody table body flaws).scopes.resolve a.value = .ok c := by
  obtain ⟨chapter, hchapter, hvisit⟩ := mem_visits.1 hv
  obtain ⟨before, behind, hchapters⟩ := List.append_of_mem hchapter
  have ha := chapter.tour.occurs_of_resolvesTo hvisit h
  obtain ⟨earlier, later, hvisits⟩ := List.append_of_mem hvisit
  have htour := chapter.tour
  rw [hvisits] at htour
  exact Scopes.resolve_mono (visible_below hproper hchapters hvisits)
    ((htour.resolvesTo_iff_resolve ha).1 h)

/-- The finished tree of a block has the color of every attribute in it. -/
theorem colorAt_finished (hnames : (table.map BlockRule.name).Nodup) (hv : v ∈ visits table body)
    (h : v.ResolvesTo a c) :
    ∃ tree, (ofBody table body flaws).scopes.get? v.rule.name = some tree ∧
      tree.colorAt v.nodePath.tail = some c := by
  obtain ⟨chapter, hchapter, hvisit⟩ := mem_visits.1 hv
  have hrule : v.rule = chapter.rule := chapter.tour.rule v hvisit
  refine ⟨chapter.tree, (get?_scopes hnames _ _).2 ⟨chapter, hchapter, by rw [hrule], rfl⟩, ?_⟩
  exact (chapter.tour.colorAt_iff rfl _ c).2
    ⟨v, hvisit, ⟨a, h⟩, chapter.tour.nodePath_eq hvisit⟩

/-- **The finished trees are a fixpoint of the walk.**  In every source, and under the standard
table, an attribute that resolved to a color resolves to it in the finished trees, and this is the
color that is written down for it, beside the place of its value and in the tree of its block. -/
theorem resolve_finished (source : String) (hv : v ∈ visits .standard (Body.read source).items)
    (h : v.ResolvesTo a c) :
    (ofSource .standard source).scopes.resolve a.value = .ok c ∧
      ⟨a.value.span, c, a.value.isReference⟩ ∈ (ofSource .standard source).colors ∧
      ∃ tree, (ofSource .standard source).scopes.get? v.rule.name = some tree ∧
        tree.colorAt v.nodePath.tail = some c := by
  refine ⟨resolve_finished_of_proper BlockTable.proper_standard hv h, ?_,
    colorAt_finished BlockTable.proper_standard.names hv h⟩
  exact (mem_colors_iff (hasPalette_of_mem_visits hv)).2 ⟨v, hv, a, h, rfl⟩

/-- A color that is referred to before its group has anything else in it. -/
def growingSource : String :=
  "palette \x7b\n x \x7b\n color = #010203\n z = palette.x\n \x7d\n \x7d"

theorem resolve_finished_growingSource :
    ∃ v ∈ visits .standard (Body.read growingSource).items, ∃ a,
      v.path = ["palette", "x", "z"] ∧ v.ResolvesTo a ⟨1, 2, 3⟩ ∧
      (ofSource .standard growingSource).scopes.resolve a.value = .ok ⟨1, 2, 3⟩ ∧
        ⟨a.value.span, ⟨1, 2, 3⟩, a.value.isReference⟩ ∈
          (ofSource .standard growingSource).colors ∧
        ∃ tree, (ofSource .standard growingSource).scopes.get? v.rule.name = some tree ∧
          tree.colorAt v.nodePath.tail = some ⟨1, 2, 3⟩ := by
  have hfound : ∃ v ∈ visits .standard (Body.read growingSource).items,
      v.path = ["palette", "x", "z"] ∧
        v.verdict.location?.map ColorLocation.color = some ⟨1, 2, 3⟩ := by
    decide +kernel
  obtain ⟨v, hv, hpath, hcolor⟩ := hfound
  obtain ⟨location, hlocation, hc⟩ := Option.map_eq_some_iff.1 hcolor
  obtain ⟨a, ha, -⟩ := resolvesTo_of_location? hv hlocation
  rw [hc] at ha
  exact ⟨v, hv, a, hpath, ha, resolve_finished growingSource hv ha⟩

end Analysis

end ColorTheme
