import ColorTheme.Proofs.Account.Index
import ColorTheme.Proofs.Grammar.Flaws
import ColorTheme.Proofs.Item.Extent

/-!
# The spans of an analysis

* `Body.sorted_eq` : items that start one behind the other are what their attributes and blocks
  give, sorted by where they start.
* `exists_finding_of_mem_log`, `mem_spreadAll_of_mem_findings` : what an analysis tells is about an
  item of the document, for every table.
* `Analysis.wellPlaced` : so all spans lie in the source, around the parts that they are about.
-/

set_option autoImplicit false

namespace ColorTheme

/-! ## The items of a body -/

/-- The items that the attributes and the blocks of a body make together, sorted by where they
start. -/
def Body.sorted (attributes : List Attribute) (blocks : List Block) : Body :=
  (attributes.map Item.assignment ++ blocks.map Block.item).mergeSort
    fun i j => decide (i.span.start ≤ j.span.start)

theorem Body.perm_attributes_blocks (body : Body) :
    (body.attributes.map Item.assignment ++ body.blocks.map Block.item).Perm body := by
  induction body with
  | nil => exact .nil
  | cons item body ih =>
    cases item with
    | assignment a => exact ih.cons _
    | block kind inner span => exact List.perm_middle.trans (ih.cons _)

/-- **Items that start one behind the other come out of the sorting as they were.** -/
theorem Body.sorted_eq {body : Body}
    (h : body.Pairwise fun i j => i.span.start < j.span.start) :
    Body.sorted body.attributes body.blocks = body := by
  have hnodup : (body.map fun i => i.span.start).Nodup :=
    List.pairwise_map.2 (h.imp Nat.ne_of_lt)
  have hperm : (Body.sorted body.attributes body.blocks).Perm body :=
    (List.mergeSort_perm _ _).trans body.perm_attributes_blocks
  have hsorted : (Body.sorted body.attributes body.blocks).Pairwise
      fun i j => i.span.start ≤ j.span.start := by
    have htrans (i j k : Item) : decide (i.span.start ≤ j.span.start) = true →
        decide (j.span.start ≤ k.span.start) = true → decide (i.span.start ≤ k.span.start) = true := by
      simp only [decide_eq_true_eq]
      exact Nat.le_trans
    have htotal (i j : Item) :
        (decide (i.span.start ≤ j.span.start) || decide (j.span.start ≤ i.span.start)) = true := by
      simp only [Bool.or_eq_true, decide_eq_true_eq]
      exact Nat.le_total _ _
    exact (List.pairwise_mergeSort htrans htotal _).imp of_decide_eq_true
  refine hperm.eq_of_pairwise (fun i j hi hj hij hji => ?_) hsorted (h.imp Nat.le_of_lt)
  exact List.inj_on_of_nodup_map hnodup (hperm.subset hi) hj (Nat.le_antisymm hij hji)

/-- The items of a body are apart, in the order of the source, as are its attributes and its
blocks, and it is told by these. -/
structure Body.InOrder (body : Body) : Prop where
  apart : body.Pairwise fun i j => i.span.Before j.span
  attributes : body.attributes.Pairwise fun a b => a.span.start < b.span.start
  blocks : body.blocks.Pairwise fun a b => a.span.start < b.span.start
  sorted : Body.sorted body.attributes body.blocks = body

theorem Item.Placed.nonempty {cs : List Char} {item : Item} (h : item.Placed cs) :
    item.span.start < item.span.stop := by
  cases h with
  | assignment fits named value coversName =>
    have hname := named.nonempty
    exact Nat.lt_of_le_of_lt coversName.1 (Nat.lt_of_lt_of_le hname coversName.2)
  | block fits named coversName =>
    have hname := named.nonempty
    exact Nat.lt_of_le_of_lt coversName.1 (Nat.lt_of_lt_of_le hname coversName.2)

theorem Body.inOrder_of_apart {cs : List Char} {body : Body} (hplaced : ∀ i ∈ body, i.Placed cs)
    (hapart : body.Pairwise fun i j => i.span.Before j.span) : body.InOrder := by
  have hstarts : body.Pairwise fun i j => i.span.start < j.span.start :=
    hapart.imp_of_mem fun {i j} hi _ hbefore => Nat.lt_of_lt_of_le (hplaced i hi).nonempty hbefore
  refine ⟨hapart, ?_, ?_, Body.sorted_eq hstarts⟩
  · refine List.pairwise_filterMap.2 (hstarts.imp fun {i j} hlt a ha b hb => ?_)
    cases i <;> cases j <;> cases ha <;> cases hb
    exact hlt
  · refine List.pairwise_filterMap.2 (hstarts.imp fun {i j} hlt a ha b hb => ?_)
    cases i <;> cases j <;> cases ha <;> cases hb
    exact hlt

theorem Expr.Placed.fits {cs : List Char} {e : Expr} (h : e.Placed cs) : e.span.Fits cs := by
  cases h <;> assumption

theorem Item.Placed.name_fits {cs : List Char} {item : Item} (h : item.Placed cs) :
    item.name.span.Fits cs := by
  cases h with
  | assignment fits named => exact named.fits
  | block fits named => exact named.fits

/-! ## What an analysis tells -/

theorem mem_of_mem_barredBlocks {table : BlockTable} {seen : List String} {blocks : List Block}
    {barred : Block × Problem} (h : barred ∈ barredBlocks table seen blocks) :
    barred.1 ∈ blocks := by
  induction blocks generalizing seen with
  | nil => cases h
  | cons block blocks ih =>
    rw [barredBlocks] at h
    split at h
    · rcases List.mem_cons.1 h with rfl | h
      · exact List.mem_cons_self
      · exact List.mem_cons_of_mem _ (ih h)
    · split at h
      · rcases List.mem_cons.1 h with rfl | h
        · exact List.mem_cons_self
        · exact List.mem_cons_of_mem _ (ih h)
      · exact List.mem_cons_of_mem _ (ih h)

namespace Analysis

variable {table : BlockTable} {body : Body} {flaws : List Flaw}

/-- Each finding is on an item of the body. -/
theorem mem_spreadAll_of_mem_findings {f : Finding} (hf : f ∈ findings table body) :
    f.item ∈ spreadAll body := by
  rcases List.mem_append.1 hf with hf | hf
  · rcases mem_openingFindings.1 hf with hf | ⟨block, hblock, hf⟩
    · rcases mem_outerFindings.1 hf with ⟨a, ha, rfl⟩ | ⟨barred, hbarred, rfl⟩
      · exact (Within.top (Body.mem_attributes.1 ha)).mem_spreadAll
      · exact (Within.top (Body.mem_blocks.1 (mem_of_mem_barredBlocks hbarred))).mem_spreadAll
    · have hmem : block.item ∈ body := Body.mem_blocks.1 (List.mem_of_find?_eq_some hblock)
      rcases mem_metaFindings.1 hf with ⟨inner, hinner, rfl⟩ | hf
      · exact ((Within.top hmem).inside (Body.mem_blocks.1 hinner)).mem_spreadAll
      · obtain ⟨a, ha, log, rfl⟩ := mem_noteFindings hf
        exact ((Within.top hmem).inside (Body.mem_attributes.1 ha)).mem_spreadAll
  · obtain ⟨c, hc, hf⟩ := List.mem_flatMap.1 hf
    rcases List.mem_cons.1 hf with rfl | hf
    · have hblock := List.mem_of_find?_eq_some (block?_of_mem_chapters hc)
      exact (Within.top (Body.mem_blocks.1 hblock)).mem_spreadAll
    · obtain ⟨v, hv, rfl⟩ := List.mem_map.1 hf
      exact (items_visits_sublist hc).subset (List.mem_map_of_mem hv)

/-- A verdict is that of a finding, or it is that a block is not complete. -/
theorem exists_finding_of_mem_log {v : Verdict} (h : v ∈ (ofBody table body flaws).log) :
    (∃ f ∈ findings table body, f.verdict = v) ∨
      ∃ c ∈ chapters table body, v ∈ completenessVerdicts c.rule c.block := by
  by_cases hp : HasPalette table body
  · rw [log_of_hasPalette hp, ← map_verdict_openingFindings] at h
    rcases List.mem_append.1 h with h | h
    · obtain ⟨f, hf, hverdict⟩ := List.mem_map.1 h
      exact .inl ⟨f, List.mem_append_left _ hf, hverdict⟩
    · obtain ⟨c, hc, h⟩ := List.mem_flatMap.1 h
      rw [c.verdicts_eq] at h
      rcases List.mem_append.1 h with h | h
      · obtain ⟨f, hf, hverdict⟩ := List.mem_map.1 h
        exact .inl ⟨f, finding_mem_of_chapter hc hf, hverdict⟩
      · exact .inr ⟨c, hc, h⟩
  · rw [ofBody_of_not_hasPalette hp] at h
    dsimp only at h
    rw [← map_verdict_outsideFindings, ← map_verdict_barredBlocks, ← List.map_append] at h
    obtain ⟨f, hf, hverdict⟩ := List.mem_map.1 h
    exact .inl ⟨f, List.mem_append_left _ (mem_openingFindings.2 (.inl hf)), hverdict⟩

theorem span_of_mem_completenessVerdicts {rule : BlockRule} {block : Block} {v : Verdict}
    {d : Diagnostic} (h : v ∈ completenessVerdicts rule block) (hd : v.diagnostic? = some d) :
    d.span = block.kind.span := by
  unfold completenessVerdicts at h
  split at h
  · cases h
  · dsimp only at h
    split at h
    · cases h
    · rw [List.mem_singleton.1 h] at hd
      cases hd
      rfl

/-- **A symbol stands at the name of an item.** -/
theorem exists_item_of_symbol {entry : Path × Span}
    (h : entry ∈ (ofBody table body flaws).symbols) :
    ∃ item ∈ spreadAll body, entry.2 = item.name.span := by
  obtain ⟨v, hv, hsymbol⟩ := List.mem_filterMap.1 ((Entries.mem_putAll h).resolve_left nofun)
  rcases exists_finding_of_mem_log hv with ⟨f, hf, rfl⟩ | ⟨c, -, hv⟩
  · obtain ⟨-, -, hname⟩ := accepted_of_symbol? hf hsymbol
    exact ⟨f.item, mem_spreadAll_of_mem_findings hf, hname⟩
  · obtain ⟨d, rfl, -⟩ := warning_of_mem_completenessVerdicts hv
    cases hsymbol

/-- A color is that of an attribute that is visited. -/
theorem exists_visit_of_color {location : ColorLocation}
    (h : location ∈ (ofBody table body flaws).colors) :
    ∃ v ∈ visits table body, ∃ a, v.ResolvesTo a location.color ∧
      .assignment a ∈ spreadAll body ∧
      location = ⟨a.value.span, location.color, a.value.isReference⟩ := by
  rw [colors_eq] at h
  obtain ⟨v, hv, hlocation⟩ := List.mem_filterMap.1 h
  obtain ⟨a, ha, heq⟩ := resolvesTo_of_location? hv hlocation
  obtain ⟨c, hc, hvisit⟩ := mem_visits.1 hv
  have hitem := (items_visits_sublist hc).subset (List.mem_map_of_mem hvisit)
  rw [ha.1] at hitem
  exact ⟨v, hv, a, ha, hitem, heq⟩

/-- **A color stands at the value of an attribute.** -/
theorem exists_item_of_color {location : ColorLocation}
    (h : location ∈ (ofBody table body flaws).colors) :
    ∃ a, .assignment a ∈ spreadAll body ∧ location.span = a.value.span := by
  obtain ⟨v, -, a, -, hitem, heq⟩ := exists_visit_of_color h
  exact ⟨a, hitem, by rw [heq]⟩

/-- **A diagnostic stands at a flaw of the wording, at the name or the value of an item, or at the
beginning.** -/
theorem exists_place_of_diagnostic {d : Diagnostic}
    (h : d ∈ (ofBody table body flaws).diagnostics) :
    (∃ flaw ∈ flaws, d.span = flaw.span) ∨
      (∃ item ∈ spreadAll body, d.span = item.name.span ∨
        ∃ a, item = .assignment a ∧ d.span = a.value.span) ∨ d.span = Span.point 0 := by
  have hlog : d ∈ flaws.map Diagnostic.ofFlaw ∨
      d ∈ (ofBody table body flaws).log.filterMap Verdict.diagnostic? ∨ d.span = Span.point 0 := by
    by_cases hp : HasPalette table body
    · rw [ofBody_of_hasPalette hp] at h ⊢
      exact (List.mem_append.1 h).imp_right .inl
    · rw [ofBody_of_not_hasPalette hp] at h ⊢
      rcases List.mem_append.1 h with h | h
      · exact (List.mem_append.1 h).imp_right .inl
      · rw [List.mem_singleton.1 h]
        exact .inr (.inr rfl)
  rcases hlog with hflaw | hverdict | hstart
  · obtain ⟨flaw, hmem, rfl⟩ := List.mem_map.1 hflaw
    exact .inl ⟨flaw, hmem, rfl⟩
  · obtain ⟨v, hv, hd⟩ := List.mem_filterMap.1 hverdict
    rcases exists_finding_of_mem_log hv with ⟨f, hf, rfl⟩ | ⟨c, hc, hv⟩
    · have hitem := mem_spreadAll_of_mem_findings hf
      rcases accepted_or_rejected hf with haccepted | ⟨taken, d', hverdict, -, hspan⟩
      · rw [Accepted.diagnostic? haccepted] at hd
        cases hd
      · rw [hverdict] at hd
        cases hd
        exact .inr (.inl ⟨f.item, hitem, hspan⟩)
    · have hblock := List.mem_of_find?_eq_some (block?_of_mem_chapters hc)
      refine .inr (.inl ⟨c.block.item, ?_, .inl (span_of_mem_completenessVerdicts hv hd)⟩)
      exact (Within.top (Body.mem_blocks.1 hblock)).mem_spreadAll
  · exact .inr (.inr hstart)

/-- All the spans that reading and analyzing a source come to. -/
structure WellPlaced (table : BlockTable) (source : String) : Prop where
  /-- The items of the document are in order. -/
  body : (Body.read source).items.InOrder
  /-- So are the items of each block, and each item is where its parts are. -/
  items : ∀ item ∈ spreadAll (Body.read source).items, item.Placed source.toList
  inner : ∀ block : Block, block.item ∈ spreadAll (Body.read source).items → block.body.InOrder
  flaws : ∀ flaw ∈ (Body.read source).flaws, flaw.span.Fits source.toList
  diagnostics : ∀ d ∈ (ofSource table source).diagnostics, d.span.Fits source.toList
  symbols : ∀ entry ∈ (ofSource table source).symbols, entry.2.Fits source.toList
  colors : ∀ location ∈ (ofSource table source).colors, location.span.Fits source.toList

/-- **All spans are well placed**, for every table and every source. -/
theorem wellPlaced (table : BlockTable) (source : String) : WellPlaced table source := by
  have hspaced := spaced_tokenize source
  have harranged := arranged_readBody false (lastSpan (tokenize source)) _ hspaced
  have hitems : ∀ item ∈ spreadAll (Body.read source).items, item.Placed source.toList :=
    fun item hitem => Body.placed_of_mem hitem
  have hflaws : ∀ flaw ∈ (Body.read source).flaws, flaw.span.Fits source.toList := by
    intro flaw hflaw
    obtain ⟨k, hk⟩ := Grammar.standsAt_of_readBody _ _ _ flaw hflaw
    rw [hk]
    exact (hspaced.drop k).current_fits
  constructor
  case body =>
    exact Body.inOrder_of_apart (fun i hi => hitems i (Within.top hi).mem_spreadAll)
      harranged.apart
  case items => exact hitems
  case inner =>
    intro block hblock
    cases hitems _ hblock with
    | block fits named coversName coversItems behind apart =>
      exact Body.inOrder_of_apart
        (fun i hi => hitems i (mem_spreadAll_of_mem_block hblock hi)) apart
  case flaws => exact hflaws
  case diagnostics =>
    intro d hd
    rcases exists_place_of_diagnostic hd with
      ⟨flaw, hflaw, hspan⟩ | ⟨item, hitem, hspan | ⟨a, rfl, hspan⟩⟩ | hspan
    · rw [hspan]
      exact hflaws flaw (List.mem_of_mem_filter hflaw)
    · rw [hspan]
      exact (hitems item hitem).name_fits
    · rw [hspan]
      cases hitems _ hitem with
      | assignment fits named value => exact value.fits
    · rw [hspan]
      exact Span.fits_point_zero _
  case symbols =>
    intro entry hentry
    obtain ⟨item, hitem, hspan⟩ := exists_item_of_symbol hentry
    rw [hspan]
    exact (hitems item hitem).name_fits
  case colors =>
    intro location hlocation
    obtain ⟨a, ha, hspan⟩ := exists_item_of_color hlocation
    rw [hspan]
    cases hitems _ ha with
    | assignment fits named value => exact value.fits

end Analysis

end ColorTheme
