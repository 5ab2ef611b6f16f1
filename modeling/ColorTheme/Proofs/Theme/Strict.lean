import ColorTheme.Proofs.Theme.Complete

/-!
# The strict check and the analysis agree on the colors of a terminal

The analysis reads the items of a block to tell which required names are not assigned in it, and
warns of them.  The strict check looks for the same names among the nodes of the finished tree.

* `Chapter.child?_tree_iff` : where all items of a flat block are accepted, its tree has a node of
  a name exactly if the block assigns the name.
* `Analysis.completeness_ofBody` : the warnings of an analysis are those of its blocks.
* `Theme.missingAnsiNames_eq` : in a document without errors, the tree lacks what the block does
  not assign.
* `Theme.strict_agrees` : so the strict check fails exactly where the analysis warns, and for the
  same names, or where there is no block at all.
-/

set_option autoImplicit false

namespace ColorTheme

/-! ## Names that are not assigned -/

/-- The block gives the name a value. -/
def Block.Assigns (block : Block) (name : String) : Prop :=
  ∃ a ∈ block.body.attributes, a.name.name = name

instance (block : Block) (name : String) : Decidable (block.Assigns name) :=
  inferInstanceAs (Decidable (∃ a ∈ block.body.attributes, a.name.name = name))

/-- The required names that the block does not assign, in the order in which they are required. -/
def Block.unassigned (block : Block) (required : List String) : List String :=
  required.filter fun name => ¬ block.Assigns name

theorem completenessVerdicts_eq {rule : BlockRule} {required : List String}
    (h : rule.allowedNames = some required) (block : Block) :
    completenessVerdicts rule block =
      if block.unassigned required = [] then []
      else [.incomplete ⟨.incomplete rule.name (block.unassigned required), block.kind.span⟩] := by
  have hfilter : required.filter
      (fun name => !(block.body.attributes.map (·.name.name)).contains name) =
        block.unassigned required := by
    refine List.filter_congr fun name _ => ?_
    rw [List.contains_eq_mem, ← decide_not, decide_eq_decide, List.mem_map]
    rfl
  unfold completenessVerdicts
  rw [h]
  dsimp only
  rw [hfilter]
  cases block.unassigned required with
  | nil => rfl
  | cons name missing => rfl

theorem completenessVerdicts_of_none {rule : BlockRule} (h : rule.allowedNames = none)
    (block : Block) : completenessVerdicts rule block = [] := by
  unfold completenessVerdicts
  rw [h]

/-! ## The tree of a flat block -/

namespace Chapter

variable {c : Chapter} {v : Visit} {a : Attribute}

/-- An accepted attribute of a block without styles is a color. -/
theorem resolvesTo_of_accepted (hplain : c.rule.styled = false) (hv : v ∈ c.visits)
    (haccepted : v.finding.Accepted) (ha : v.item = .assignment a) :
    ∃ color, v.ResolvesTo a color := by
  obtain ⟨p, hp⟩ := c.tour.exists_judged hv
  have haccepted : v.verdict.symbol? = some (v.finding.path, v.item.name.span) := haccepted
  cases hverdict : v.verdict with
  | colored path name location =>
    obtain ⟨b, hb, -⟩ := c.tour.resolvesTo_of_colored hv hverdict
    obtain rfl : b = a := Item.assignment.inj (hb.1.symm.trans ha)
    exact ⟨_, hb⟩
  | flagged path name flag value =>
    rw [hverdict] at hp
    obtain ⟨b, -, -, -, hisFlag, -⟩ := hp.of_flagged
    obtain ⟨-, hstyled, -⟩ := BlockRule.name_of_flag? hisFlag
    have hstyled : c.rule.styled = true := hstyled
    rw [hplain] at hstyled
    cases hstyled
  | opened path name | noted key name text =>
    rw [ha, hverdict] at hp
    cases hp
  | rejected taken d | incomplete d =>
    rw [hverdict] at haccepted
    cases haccepted

/-- **Where all items of a flat block are accepted, its tree has a node of a name exactly if the
block assigns the name.** -/
theorem child?_tree_iff (hflat : c.rule.nesting = false) (hplain : c.rule.styled = false)
    (haccepted : ∀ v ∈ c.visits, v.finding.Accepted) (name : String) :
    (c.tree.child? name).isSome ↔ c.block.Assigns name := by
  have hchild : (c.tree.child? name).isSome ↔
      ∃ mark ∈ c.visits.filterMap Visit.mark?, [name] <+: mark.1 := by
    have hpainted := Node.get?_painted_isSome (c.visits.filterMap Visit.mark?) [name]
    rw [← c.tree_eq, Node.get?_cons] at hpainted
    cases hc : c.tree.child? name with
    | none =>
      rw [hc] at hpainted
      simpa using hpainted
    | some child =>
      rw [hc] at hpainted
      simpa using hpainted
  rw [hchild]
  constructor
  · rintro ⟨⟨path, color⟩, hmark, hprefix⟩
    obtain ⟨v, hv, hmark⟩ := List.mem_filterMap.1 hmark
    obtain ⟨⟨a, ha⟩, hpath⟩ := (c.tour.mark?_eq_some_iff hv).1 hmark
    obtain ⟨-, hmem⟩ := c.tour.mem_of_flat hflat hv
    rw [ha.1] at hmem
    refine ⟨a, Body.mem_attributes.2 hmem, ?_⟩
    rw [c.tour.nodePath_of_flat hflat hv, ha.1] at hpath
    obtain ⟨-, rfl⟩ := List.cons.inj hpath
    exact (List.cons_prefix_cons.1 hprefix).1.symm
  · rintro ⟨a, ha, rfl⟩
    obtain ⟨v, hv, -, hitem⟩ := c.covers.items _ (Body.mem_attributes.1 ha)
    obtain ⟨color, hcolor⟩ := resolvesTo_of_accepted hplain hv (haccepted v hv) hitem
    refine ⟨([a.name.name], color), List.mem_filterMap.2 ⟨v, hv, ?_⟩, List.prefix_refl _⟩
    refine (c.tour.mark?_eq_some_iff hv).2 ⟨⟨a, hcolor⟩, ?_⟩
    rw [c.tour.nodePath_of_flat hflat hv, hitem]
    rfl

end Chapter

/-! ## The warnings of an analysis -/

theorem completenessVerdicts_chaptersFrom (body : Body) (stage : Stage) (table : BlockTable) :
    (chaptersFrom body stage table).flatMap (fun c => completenessVerdicts c.rule c.block) =
      table.flatMap fun rule =>
        (body.block? rule.name).toList.flatMap (completenessVerdicts rule) := by
  induction table generalizing stage with
  | nil => rfl
  | cons rule rules ih =>
    rw [chaptersFrom, List.flatMap_cons]
    cases body.block? rule.name with
    | none => exact ih stage
    | some block =>
      dsimp only
      rw [List.flatMap_cons, ih, Option.toList_some, List.flatMap_singleton]

namespace Analysis

variable {table : BlockTable} {body : Body} {flaws : List Flaw}

/-- The diagnostics that say what is missing from a block. -/
def completeness (a : Analysis) : List Diagnostic :=
  a.diagnostics.filter fun d => d.problem.group = .completeness

/-- Only what says that something is missing from a block is no error. -/
theorem group_eq_completeness_iff (d : Diagnostic) :
    d.problem.group = .completeness ↔ d.isError = false := by
  obtain ⟨problem, span⟩ := d
  cases problem <;> simp [Problem.group, Diagnostic.isError, Problem.severity]

/-- What is read off the verdicts on completeness only can be read off the blocks. -/
theorem filterMap_log_of_incomplete {α : Type} (h : HasPalette table body)
    (read : Verdict → Option α) (hread : ∀ f ∈ findings table body, read f.verdict = none) :
    (ofBody table body flaws).log.filterMap read =
      (table.flatMap fun rule =>
        (body.block? rule.name).toList.flatMap (completenessVerdicts rule)).filterMap read := by
  have hopening : (openingLog table body).filterMap read = [] := by
    rw [← map_verdict_openingFindings, List.filterMap_map]
    exact List.filterMap_eq_nil_iff.2 fun f hf => hread f (List.mem_append_left _ hf)
  have hchapter : ∀ c ∈ chapters table body,
      c.verdicts.filterMap read = (completenessVerdicts c.rule c.block).filterMap read := by
    intro c hc
    rw [c.verdicts_eq, List.filterMap_append, List.filterMap_map]
    have hfindings : c.findings.filterMap (read ∘ Finding.verdict) = [] :=
      List.filterMap_eq_nil_iff.2 fun f hf => hread f (finding_mem_of_chapter hc hf)
    rw [hfindings, List.nil_append]
  rw [log_of_hasPalette h, List.filterMap_append, hopening, List.nil_append,
    List.filterMap_flatMap, List.flatMap_congr hchapter, ← List.filterMap_flatMap, chapters,
    if_pos h, completenessVerdicts_chaptersFrom]

/-- A block of the table that is in a document with a palette has a tree. -/
theorem block?_of_get?_scopes (hnames : (table.map BlockRule.name).Nodup)
    (h : HasPalette table body) {rule : BlockRule} (hrule : rule ∈ table)
    (hnone : (ofBody table body flaws).scopes.get? rule.name = none) :
    body.block? rule.name = none := by
  by_contra hne
  obtain ⟨block, hblock⟩ := Option.ne_none_iff_exists'.1 hne
  obtain ⟨c, hc, rfl, -⟩ : ∃ c ∈ chapters table body, c.rule = rule ∧ c.block = block := by
    rw [chapters, if_pos h]
    exact exists_mem_chaptersFrom hrule hblock
  rw [(get?_scopes hnames c.rule.name c.tree).2 ⟨c, hc, rfl, rfl⟩] at hnone
  cases hnone

/-- **The warnings of an analysis are those of its blocks.** -/
theorem completeness_ofBody (h : HasPalette table body) :
    (ofBody table body flaws).completeness =
      (table.flatMap fun rule =>
        (body.block? rule.name).toList.flatMap (completenessVerdicts rule)).filterMap
          Verdict.diagnostic? := by
  have hflaws : (flaws.map Diagnostic.ofFlaw).filter
      (fun d => d.problem.group = .completeness) = [] := by
    refine List.filter_eq_nil_iff.2 fun d hd => ?_
    obtain ⟨flaw, -, rfl⟩ := List.mem_map.1 hd
    exact fun hgroup => by cases of_decide_eq_true hgroup
  have hfindings : ∀ f ∈ findings table body,
      f.verdict.diagnostic?.filter (fun d => decide (d.problem.group = .completeness)) = none := by
    intro f hf
    rcases accepted_or_rejected hf with haccepted | hrejected
    · rw [Accepted.diagnostic? haccepted]
      rfl
    · obtain ⟨d, hd, herror⟩ := Rejected.diagnostic? hrejected
      rw [hd, Option.filter_some, if_neg]
      intro hgroup
      rw [(group_eq_completeness_iff d).1 (of_decide_eq_true hgroup)] at herror
      cases herror
  have hwarned : ∀ v ∈ table.flatMap (fun rule =>
      (body.block? rule.name).toList.flatMap (completenessVerdicts rule)),
      v.diagnostic?.filter (fun d => decide (d.problem.group = .completeness)) =
        v.diagnostic? := by
    intro v hv
    obtain ⟨rule, -, hv⟩ := List.mem_flatMap.1 hv
    obtain ⟨block, -, hv⟩ := List.mem_flatMap.1 hv
    obtain ⟨d, rfl, hd⟩ := warning_of_mem_completenessVerdicts hv
    simp [Verdict.diagnostic?, (group_eq_completeness_iff d).2 hd]
  rw [completeness, diagnostics_ofBody, if_pos h, List.append_nil, List.filter_append, hflaws,
    List.nil_append, List.filter_filterMap, filterMap_log_of_incomplete h _ hfindings,
    List.filterMap_congr hwarned]

/-- Of the blocks of a source, only `ansi` must assign all of its names. -/
theorem completeness_ofSource {source : String} (h : HasPalette .standard (Body.read source).items) :
    (ofSource .standard source).completeness =
      match Body.block? (Body.read source).items ansiName with
      | none => []
      | some block =>
        if block.unassigned ansiNames = [] then []
        else [⟨.incomplete ansiName (block.unassigned ansiNames), block.kind.span⟩] := by
  have hfree : ∀ rule : BlockRule, rule.allowedNames = none →
      (Body.block? (Body.read source).items rule.name).toList.flatMap
        (completenessVerdicts rule) = [] := fun rule hrule =>
    List.flatMap_eq_nil_iff.2 fun block _ => completenessVerdicts_of_none hrule block
  rw [ofSource, completeness_ofBody h]
  simp only [BlockTable.standard, List.flatMap_cons, List.flatMap_nil, hfree, List.nil_append,
    List.append_nil]
  cases Body.block? (Body.read source).items ansiName with
  | none => rfl
  | some block =>
    dsimp only
    rw [Option.toList_some, List.flatMap_singleton, completenessVerdicts_eq rfl]
    by_cases hall : block.unassigned ansiNames = []
    · rw [if_pos hall, if_pos hall]
      rfl
    · rw [if_neg hall, if_neg hall]
      rfl

end Analysis

/-! ## The strict check -/

namespace Theme

variable {source : String}

/-- A check that is not strict accepts a document without errors. -/
theorem settled_of_hasErrors (h : (Analysis.ofSource .standard source).hasErrors = false) :
    ofAnalysis false (.ofSource .standard source) =
      .ok (Analysis.ofSource .standard source).theme := by
  rw [ofAnalysis, if_neg (by rw [h]; exact Bool.false_ne_true)]
  rfl

theorem palette_of_hasErrors (h : (Analysis.ofSource .standard source).hasErrors = false) :
    Analysis.HasPalette .standard (Body.read source).items :=
  (regular_of_ofAnalysis (settled_of_hasErrors h)).palette

/-- **In a document without errors, the finished tree of the `ansi` block lacks what the block
does not assign.** -/
theorem missingAnsiNames_eq (h : (Analysis.ofSource .standard source).hasErrors = false)
    {tree : Node} (htree : (Analysis.ofSource .standard source).scopes.get? ansiName = some tree) :
    ∃ block, Body.block? (Body.read source).items ansiName = some block ∧
      missingAnsiNames tree = block.unassigned ansiNames := by
  obtain ⟨c, hc, hname, rfl⟩ :=
    (Analysis.get?_scopes BlockTable.proper_standard.names _ _).1 htree
  have hflat : ∀ rule ∈ BlockTable.standard, rule.name = ansiName →
      rule.nesting = false ∧ rule.styled = false := by
    decide
  obtain ⟨hnesting, hplain⟩ := hflat c.rule (Analysis.rule_mem_of_mem_chapters hc) hname
  refine ⟨c.block, hname ▸ Analysis.block?_of_mem_chapters hc,
    List.filter_congr fun name _ => ?_⟩
  have hiff := Chapter.child?_tree_iff hnesting hplain (fun v hv =>
    accepted_of_ofAnalysis (settled_of_hasErrors h) v.finding (Analysis.finding_mem_of_visit hc hv)) name
  rw [decide_not, ← Option.not_isSome, Bool.not_inj_iff]
  exact Bool.eq_iff_iff.2 (by rw [hiff, decide_eq_true_iff])

/-- The strict check and the analysis agree on the colors of a terminal. -/
structure StrictAgrees (source : String) : Prop where
  /-- If the source has a palette, the analysis lists the required names that no attribute of the
  first `ansi` block assigns, in one warning, if there are any. -/
  warned : Analysis.HasPalette .standard (Body.read source).items →
    (Analysis.ofSource .standard source).completeness =
      match Body.block? (Body.read source).items ansiName with
      | none => []
      | some block =>
        if block.unassigned ansiNames = [] then []
        else [⟨.incomplete ansiName (block.unassigned ansiNames), block.kind.span⟩]
  /-- In a source without errors, the strict check misses the block exactly if there is none. -/
  missing : (Analysis.ofSource .standard source).hasErrors = false →
    (ofAnalysis true (.ofSource .standard source) = .error .missingAnsi ↔
      Body.block? (Body.read source).items ansiName = none)
  /-- It finds the block incomplete exactly if the analysis warns of it. -/
  incomplete : (Analysis.ofSource .standard source).hasErrors = false →
    ((∃ names, ofAnalysis true (.ofSource .standard source) = .error (.incompleteAnsi names)) ↔
      (Analysis.ofSource .standard source).completeness ≠ [])
  /-- Then there is one warning, and both list the names that the block does not assign. -/
  same : (Analysis.ofSource .standard source).hasErrors = false → ∀ names,
    ofAnalysis true (.ofSource .standard source) = .error (.incompleteAnsi names) →
      ∃ block, Body.block? (Body.read source).items ansiName = some block ∧
        names = block.unassigned ansiNames ∧
        (Analysis.ofSource .standard source).completeness =
          [⟨.incomplete ansiName names, block.kind.span⟩]
  /-- In all other cases the source gives its theme. -/
  settled : (Analysis.ofSource .standard source).hasErrors = false →
    Body.block? (Body.read source).items ansiName ≠ none →
      (Analysis.ofSource .standard source).completeness = [] →
        ofAnalysis true (.ofSource .standard source) =
          .ok (Analysis.ofSource .standard source).theme

/-- What the strict check comes to in a document without errors. -/
theorem strict_eq (h : (Analysis.ofSource .standard source).hasErrors = false) :
    ofAnalysis true (.ofSource .standard source) =
      match Body.block? (Body.read source).items ansiName with
      | none => .error .missingAnsi
      | some block =>
        if block.unassigned ansiNames = [] then .ok (Analysis.ofSource .standard source).theme
        else .error (.incompleteAnsi (block.unassigned ansiNames)) := by
  have hpalette := palette_of_hasErrors h
  rw [ofAnalysis, if_neg (by rw [h]; exact Bool.false_ne_true), if_pos rfl, ansiError?]
  cases htree : (Analysis.ofSource .standard source).scopes.get? ansiName with
  | none =>
    have hrule : ⟨ansiName, false, false, some ansiNames, false⟩ ∈ BlockTable.standard := by decide
    have hnone : Body.block? (Body.read source).items ansiName = none :=
      Analysis.block?_of_get?_scopes BlockTable.proper_standard.names hpalette hrule htree
    rw [hnone]
  | some tree =>
    obtain ⟨block, hblock, hmissing⟩ := missingAnsiNames_eq h htree
    rw [hblock]
    dsimp only
    rw [hmissing]
    cases block.unassigned ansiNames with
    | nil => rfl
    | cons name names => rfl

/-- **The strict check and the analysis agree on the colors of a terminal**, in every source. -/
theorem strict_agrees (source : String) : StrictAgrees source where
  warned := Analysis.completeness_ofSource
  missing h := by
    rw [strict_eq h]
    cases Body.block? (Body.read source).items ansiName with
    | none => simp
    | some block =>
      dsimp only
      split <;> simp
  incomplete h := by
    rw [strict_eq h, Analysis.completeness_ofSource (palette_of_hasErrors h)]
    cases Body.block? (Body.read source).items ansiName with
    | none => simp
    | some block =>
      dsimp only
      split <;> simp
  same h names hnames := by
    rw [strict_eq h] at hnames
    rw [Analysis.completeness_ofSource (palette_of_hasErrors h)]
    cases hblock : Body.block? (Body.read source).items ansiName with
    | none =>
      rw [hblock] at hnames
      cases hnames
    | some block =>
      rw [hblock] at hnames
      dsimp only at hnames ⊢
      split at hnames
      · cases hnames
      · rename_i hne
        cases hnames
        exact ⟨block, rfl, rfl, if_neg hne⟩
  settled h hblock hcomplete := by
    rw [Analysis.completeness_ofSource (palette_of_hasErrors h)] at hcomplete
    rw [strict_eq h]
    cases hsome : Body.block? (Body.read source).items ansiName with
    | none => exact absurd hsome hblock
    | some block =>
      rw [hsome] at hcomplete
      dsimp only at hcomplete ⊢
      split at hcomplete
      · rename_i hall
        exact if_pos hall
      · cases hcomplete

/-- A document without errors that assigns one color of a terminal. -/
def blackSource : String := "palette \x7b\n\x7d\nansi \x7b\n  black = #000000\n\x7d\n"

theorem strict_agrees_blackSource :
    StrictAgrees blackSource ∧ Analysis.HasPalette .standard (Body.read blackSource).items ∧
      (Analysis.ofSource .standard blackSource).hasErrors = false ∧
      (Analysis.ofSource .standard blackSource).completeness =
        [⟨.incomplete ansiName (ansiNames.drop 1), ⟨12, 16⟩⟩] ∧
      ∃ names, ofAnalysis true (.ofSource .standard blackSource) =
        .error (.incompleteAnsi names) := by
  have hexact := strict_agrees blackSource
  have herrors : (Analysis.ofSource .standard blackSource).hasErrors = false := by decide +kernel
  have hwarned : (Analysis.ofSource .standard blackSource).completeness =
      [⟨.incomplete ansiName (ansiNames.drop 1), ⟨12, 16⟩⟩] := by decide +kernel
  refine ⟨hexact, by decide +kernel, herrors, hwarned, (hexact.incomplete herrors).2 ?_⟩
  rw [hwarned]
  exact List.cons_ne_nil _ _

end Theme

end ColorTheme
