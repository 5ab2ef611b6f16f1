import ColorTheme.Analysis
import ColorTheme.Proofs.Entries
import ColorTheme.Proofs.Walk.Tree

/-!
# The chapters of an analysis

One chapter for each top-level block that is entered, in the order of the table: its rule, the
block, and the stage before it.

* `Analysis.scopes_ofBody`, `Analysis.scopes_of_chapters` : the analysis ends with the finished
  trees of all chapters, and a chapter sees those of the chapters before it.
* `Analysis.log_of_hasPalette` : the log of an analysis is that of its chapters, one after the
  other, behind the verdicts on what stands outside of them.
-/

set_option autoImplicit false

namespace ColorTheme

namespace Entries

variable {κ α : Type} [DecidableEq κ]

/-- Entries that are written once each are found, and no others. -/
theorem get?_putAll_nil_iff {more : Entries κ α} (h : (more.map Prod.fst).Nodup) (key : κ)
    (value : α) : get? key (putAll [] more) = some value ↔ (key, value) ∈ more := by
  induction more using List.reverseRecOn with
  | nil => simp [putAll]
  | append_singleton more entry ih =>
    obtain ⟨k, v⟩ := entry
    rw [List.map_append, List.map_singleton, List.nodup_append] at h
    have hput : putAll [] (more ++ [(k, v)]) = put k v (putAll [] more) := by
      simp [putAll, List.foldl_append]
    rw [hput, put, List.mem_append, List.mem_singleton]
    by_cases hk : key = k
    · subst hk
      have hfresh : (key, value) ∉ more := fun hm =>
        h.2.2 key (List.mem_map.2 ⟨_, hm, rfl⟩) key (by simp) rfl
      simp [hfresh, eq_comm]
    · rw [get?_alter_of_ne hk, ih h.1]
      simp [hk]

/-- Writing an entry brings in no other. -/
theorem mem_put {entries : Entries κ α} {key : κ} {value : α} {entry : κ × α}
    (h : entry ∈ put key value entries) : entry ∈ entries ∨ entry = (key, value) := by
  rcases mem_alter h with h | ⟨old, heq, -⟩
  · exact .inl h
  · exact .inr heq

theorem mem_putAll {entries more : Entries κ α} {entry : κ × α}
    (h : entry ∈ putAll entries more) : entry ∈ entries ∨ entry ∈ more := by
  induction more generalizing entries with
  | nil => exact .inl h
  | cons first more ih =>
    rcases ih h with h | h
    · rcases mem_put h with h | rfl
      · exact .inl h
      · exact .inr List.mem_cons_self
    · exact .inr (List.mem_cons_of_mem _ h)

end Entries

/-- A top-level block that the walk enters, with its rule and the stage before it. -/
structure Chapter where
  rule : BlockRule
  block : Block
  stage : Stage

namespace Chapter

/-- What holds for all items of the block. -/
def frame (c : Chapter) : Frame :=
  ⟨c.rule, declaredByAll [c.rule.name] c.block.body, c.stage.scopes⟩

/-- The progress at the first item. -/
def start (c : Chapter) : Progress :=
  ⟨c.stage.log ++ [.opened [c.rule.name] c.block.kind.span], .blank⟩

/-- The visits of the walk through the block. -/
def visits (c : Chapter) : List Visit :=
  visitsOfItems c.frame [c.rule.name] c.start c.block.body

/-- The finished tree of the block. -/
def tree (c : Chapter) : Node := (c.start.after c.rule c.visits).tree

/-- The log when the block is finished. -/
def log (c : Chapter) : Log := (c.start.after c.rule c.visits).log

/-- The verdicts of the chapter. -/
def verdicts (c : Chapter) : Log :=
  .opened [c.rule.name] c.block.kind.span :: c.visits.map Visit.verdict ++
    completenessVerdicts c.rule c.block

/-- The name of the block and its finished tree. -/
def scope (c : Chapter) : String × Node := (c.rule.name, c.tree)

theorem tour (c : Chapter) : Tour c.frame c.start c.block.body c.visits :=
  tour_visitsOfItems c.frame c.start c.block.body

/-- The finished tree holds what the visits color. -/
theorem tree_eq (c : Chapter) : c.tree = Node.blank.painted (c.visits.filterMap Visit.mark?) :=
  c.tour.tree_after

theorem log_enter (c : Chapter) :
    (c.stage.enter c.rule c.block).log = c.stage.log ++ c.verdicts := by
  show (walkItems c.frame [c.rule.name] c.start c.block.body).log ++ _ = _
  rw [walkItems_eq_after, Progress.log_after, verdicts]
  simp [start, visits]

/-- The styles of a styled block are read off its finished tree and the log so far. -/
theorem styles_enter (c : Chapter) :
    (c.stage.enter c.rule c.block).styles =
      if c.rule.styled then c.stage.styles.putAll (stylesOf c.log c.rule.name c.tree)
      else c.stage.styles := by
  have hdone : walkItems c.frame [c.rule.name] c.start c.block.body =
      c.start.after c.rule c.visits := walkItems_eq_after _ _ _ _
  rw [log, tree, ← hdone]
  rfl

theorem scopes_enter (c : Chapter) :
    (c.stage.enter c.rule c.block).scopes = c.stage.scopes.put c.rule.name c.tree := by
  show c.stage.scopes.put c.rule.name
    (walkItems c.frame [c.rule.name] c.start c.block.body).tree = _
  rw [walkItems_eq_after]
  rfl

end Chapter

/-- The chapters of the walk through the blocks that the rules speak of. -/
def chaptersFrom (body : Body) (stage : Stage) : BlockTable → List Chapter
  | [] => []
  | rule :: rules =>
    match body.block? rule.name with
    | some block => ⟨rule, block, stage⟩ :: chaptersFrom body (stage.enter rule block) rules
    | none => chaptersFrom body stage rules

section

variable {body : Body} {stage : Stage} {table : BlockTable}

theorem rule_chaptersFrom_sublist (body : Body) (stage : Stage) (table : BlockTable) :
    ((chaptersFrom body stage table).map Chapter.rule).Sublist table := by
  induction table generalizing stage with
  | nil => exact .slnil
  | cons rule rules ih =>
    rw [chaptersFrom]
    split
    · exact .cons_cons rule (ih _)
    · exact .cons rule (ih _)

theorem block?_of_mem_chaptersFrom {c : Chapter} (h : c ∈ chaptersFrom body stage table) :
    body.block? c.rule.name = some c.block := by
  induction table generalizing stage with
  | nil => cases h
  | cons rule rules ih =>
    rw [chaptersFrom] at h
    split at h
    · rename_i block hblock
      rcases List.mem_cons.1 h with rfl | h
      · exact hblock
      · exact ih h
    · exact ih h

/-- A chapter begins at the stage after the rules before its own. -/
theorem split_of_mem_chaptersFrom {c : Chapter} (h : c ∈ chaptersFrom body stage table) :
    ∃ before behind, table = before ++ c.rule :: behind ∧
      c.stage = walkBlocks body stage before := by
  induction table generalizing stage with
  | nil => cases h
  | cons rule rules ih =>
    rw [chaptersFrom] at h
    cases hblock : body.block? rule.name with
    | none =>
      rw [hblock] at h
      obtain ⟨before, behind, rfl, hstage⟩ := ih h
      refine ⟨rule :: before, behind, rfl, ?_⟩
      rw [walkBlocks, hblock]
      exact hstage
    | some block =>
      rw [hblock] at h
      rcases List.mem_cons.1 h with rfl | h
      · exact ⟨[], rules, rfl, rfl⟩
      · obtain ⟨before, behind, rfl, hstage⟩ := ih h
        refine ⟨rule :: before, behind, rfl, ?_⟩
        rw [walkBlocks, hblock]
        exact hstage

theorem mem_chaptersFrom_of_split {before behind : BlockTable} {rule : BlockRule} {block : Block}
    (hblock : body.block? rule.name = some block) :
    ⟨rule, block, walkBlocks body stage before⟩ ∈
      chaptersFrom body stage (before ++ rule :: behind) := by
  induction before generalizing stage with
  | nil =>
    rw [List.nil_append, chaptersFrom, hblock]
    exact List.mem_cons_self
  | cons first before ih =>
    rw [List.cons_append, chaptersFrom, walkBlocks]
    cases body.block? first.name with
    | none => exact ih
    | some b => exact List.mem_cons_of_mem _ ih

/-- The walk writes down the trees of its chapters. -/
theorem scopes_walkBlocks (body : Body) (stage : Stage) (table : BlockTable) :
    (walkBlocks body stage table).scopes =
      stage.scopes.putAll ((chaptersFrom body stage table).map Chapter.scope) := by
  induction table generalizing stage with
  | nil => rfl
  | cons rule rules ih =>
    rw [walkBlocks, chaptersFrom]
    cases body.block? rule.name with
    | none => exact ih stage
    | some block =>
      dsimp only
      rw [ih, (Chapter.mk rule block stage).scopes_enter]
      rfl

/-- **A chapter sees the trees of the chapters before it.** -/
theorem scopes_of_chaptersFrom {before behind : List Chapter} {c : Chapter}
    (h : chaptersFrom body stage table = before ++ c :: behind) :
    c.stage.scopes = stage.scopes.putAll (before.map Chapter.scope) := by
  induction table generalizing stage before with
  | nil => simp [chaptersFrom] at h
  | cons rule rules ih =>
    rw [chaptersFrom] at h
    split at h
    · rename_i block hblock
      cases before with
      | nil =>
        obtain ⟨rfl, -⟩ := List.cons.inj h
        rfl
      | cons first before =>
        obtain ⟨rfl, hrest⟩ := List.cons.inj h
        rw [ih hrest, (Chapter.mk rule block stage).scopes_enter]
        rfl
    · exact ih h

/-- **The log is that of the chapters, one after the other.** -/
theorem log_walkBlocks (body : Body) (stage : Stage) (table : BlockTable) :
    (walkBlocks body stage table).log =
      stage.log ++ (chaptersFrom body stage table).flatMap Chapter.verdicts := by
  induction table generalizing stage with
  | nil => simp [walkBlocks, chaptersFrom]
  | cons rule rules ih =>
    rw [walkBlocks, chaptersFrom]
    cases body.block? rule.name with
    | none => exact ih stage
    | some block =>
      dsimp only
      rw [ih, (Chapter.mk rule block stage).log_enter, List.flatMap_cons, List.append_assoc]

/-- A chapter begins with the log of the chapters before it. -/
theorem log_of_chaptersFrom {before behind : List Chapter} {c : Chapter}
    (h : chaptersFrom body stage table = before ++ c :: behind) :
    c.stage.log = stage.log ++ before.flatMap Chapter.verdicts := by
  induction table generalizing stage before with
  | nil => simp [chaptersFrom] at h
  | cons rule rules ih =>
    rw [chaptersFrom] at h
    split at h
    · rename_i block hblock
      cases before with
      | nil =>
        obtain ⟨rfl, -⟩ := List.cons.inj h
        exact (List.append_nil _).symm
      | cons first before =>
        obtain ⟨rfl, hrest⟩ := List.cons.inj h
        rw [ih hrest, (Chapter.mk rule block stage).log_enter, List.flatMap_cons,
          List.append_assoc]
    · exact ih h

/-- Every style comes from a chapter of a styled block. -/
theorem mem_styles_walkBlocks {entry : String × Style}
    (h : entry ∈ (walkBlocks body stage table).styles) :
    entry ∈ stage.styles ∨ ∃ c ∈ chaptersFrom body stage table,
      entry ∈ stylesOf c.log c.rule.name c.tree := by
  induction table generalizing stage with
  | nil => exact .inl h
  | cons rule rules ih =>
    rw [walkBlocks] at h
    rw [chaptersFrom]
    cases hblock : body.block? rule.name with
    | none =>
      rw [hblock] at h
      exact ih h
    | some block =>
      rw [hblock] at h
      rcases ih h with h | ⟨c, hc, h⟩
      · rw [(Chapter.mk rule block stage).styles_enter] at h
        split at h
        · rcases Entries.mem_putAll h with h | h
          · exact .inl h
          · exact .inr ⟨_, List.mem_cons_self, h⟩
        · exact .inl h
      · exact .inr ⟨c, List.mem_cons_of_mem _ hc, h⟩

end

namespace Analysis

/-- The verdicts before the first block is entered: on the attributes and blocks that stand
outside of all known blocks, and on the notes. -/
def openingLog (table : BlockTable) (body : Body) : Log :=
  let before := outsideVerdicts body ++ blockVerdicts table [] body.blocks
  match body.block? metaName with
  | some block => walkMeta before block
  | none => before

/-- The document has a palette, so its blocks are worked out. -/
def HasPalette (table : BlockTable) (body : Body) : Prop :=
  table.knows paletteName = true ∧ (body.block? paletteName).isSome = true

instance (table : BlockTable) (body : Body) : Decidable (HasPalette table body) :=
  inferInstanceAs (Decidable (_ ∧ _))

/-- The stage after the last block. -/
def finalStage (table : BlockTable) (body : Body) : Stage :=
  walkBlocks body ⟨openingLog table body, [], []⟩ table

theorem ofBody_of_hasPalette {table : BlockTable} {body : Body} (h : HasPalette table body)
    (flaws : List Flaw) :
    ofBody table body flaws =
      { diagnostics := flaws.map Diagnostic.ofFlaw ++
          (finalStage table body).log.filterMap Verdict.diagnostic?
        log := (finalStage table body).log
        scopes := (finalStage table body).scopes
        styles := (finalStage table body).styles } := by
  have h' : table.knows paletteName = true ∧ (body.block? paletteName).isSome = true := h
  unfold ofBody
  dsimp only
  rw [if_pos h']
  rfl

theorem ofBody_of_not_hasPalette {table : BlockTable} {body : Body} (h : ¬ HasPalette table body)
    (flaws : List Flaw) :
    ofBody table body flaws =
      { diagnostics := flaws.map Diagnostic.ofFlaw ++
          (outsideVerdicts body ++ blockVerdicts table [] body.blocks).filterMap
            Verdict.diagnostic? ++ [⟨.missingPalette, Span.point 0⟩]
        log := outsideVerdicts body ++ blockVerdicts table [] body.blocks
        scopes := []
        styles := [] } := by
  have h' : ¬(table.knows paletteName = true ∧ (body.block? paletteName).isSome = true) := h
  unfold ofBody
  dsimp only
  rw [if_neg h']

/-- The diagnostics are the flaws and what is read off the log; the lack of a palette comes last. -/
theorem diagnostics_ofBody (table : BlockTable) (body : Body) (flaws : List Flaw) :
    (ofBody table body flaws).diagnostics = flaws.map Diagnostic.ofFlaw ++
      (ofBody table body flaws).log.filterMap Verdict.diagnostic? ++
      (if HasPalette table body then [] else [⟨.missingPalette, Span.point 0⟩]) := by
  by_cases h : HasPalette table body
  · rw [ofBody_of_hasPalette h, if_pos h, List.append_nil]
  · rw [ofBody_of_not_hasPalette h, if_neg h]

/-- The chapters of an analysis; a document without a palette has none. -/
def chapters (table : BlockTable) (body : Body) : List Chapter :=
  if HasPalette table body then chaptersFrom body ⟨openingLog table body, [], []⟩ table else []

/-- The visits of an analysis: all the items that it comes to in the blocks of the table. -/
def visits (table : BlockTable) (body : Body) : List Visit :=
  (chapters table body).flatMap Chapter.visits

variable {table : BlockTable} {body : Body} {flaws : List Flaw}

theorem mem_visits {v : Visit} :
    v ∈ visits table body ↔ ∃ c ∈ chapters table body, v ∈ c.visits := List.mem_flatMap

theorem rule_chapters_sublist (table : BlockTable) (body : Body) :
    ((chapters table body).map Chapter.rule).Sublist table := by
  unfold chapters
  split
  · exact rule_chaptersFrom_sublist _ _ _
  · exact List.nil_sublist table

theorem block?_of_mem_chapters {c : Chapter} (h : c ∈ chapters table body) :
    body.block? c.rule.name = some c.block := by
  unfold chapters at h
  split at h
  · exact block?_of_mem_chaptersFrom h
  · cases h

theorem hasPalette_of_mem_chapters {c : Chapter} (h : c ∈ chapters table body) :
    HasPalette table body := by
  by_contra hp
  rw [chapters, if_neg hp] at h
  cases h

theorem rule_mem_of_mem_chapters {c : Chapter} (h : c ∈ chapters table body) : c.rule ∈ table :=
  (rule_chapters_sublist table body).subset (List.mem_map_of_mem h)

/-- Chapters are told apart by the names of their blocks. -/
theorem nodup_chapterNames (hnames : (table.map BlockRule.name).Nodup) (body : Body) :
    ((chapters table body).map fun c => c.rule.name).Nodup := by
  have := hnames.sublist ((rule_chapters_sublist table body).map BlockRule.name)
  rwa [List.map_map] at this

/-- Chapters of one name are one chapter. -/
theorem eq_of_ruleName (hnames : (table.map BlockRule.name).Nodup) {c d : Chapter}
    (hc : c ∈ chapters table body) (hd : d ∈ chapters table body)
    (h : d.rule.name = c.rule.name) : d = c :=
  List.inj_on_of_nodup_map (nodup_chapterNames hnames body) hd hc h

/-- The scopes of an analysis are the finished trees of its chapters. -/
theorem scopes_ofBody (table : BlockTable) (body : Body) (flaws : List Flaw) :
    (ofBody table body flaws).scopes =
      Entries.putAll [] ((chapters table body).map Chapter.scope) := by
  by_cases h : HasPalette table body
  · rw [ofBody_of_hasPalette h, chapters, if_pos h]
    exact scopes_walkBlocks body ⟨openingLog table body, [], []⟩ table
  · rw [ofBody_of_not_hasPalette h, chapters, if_neg h]
    rfl

/-- A name leads to the finished tree of the chapter of that name. -/
theorem get?_scopes (hnames : (table.map BlockRule.name).Nodup) (name : String) (tree : Node) :
    (ofBody table body flaws).scopes.get? name = some tree ↔
      ∃ c ∈ chapters table body, c.rule.name = name ∧ c.tree = tree := by
  have hkeys : (((chapters table body).map Chapter.scope).map Prod.fst).Nodup := by
    rw [List.map_map]
    exact nodup_chapterNames hnames body
  rw [scopes_ofBody, Entries.get?_putAll_nil_iff hkeys]
  simp [Chapter.scope]

theorem log_of_hasPalette (h : HasPalette table body) :
    (ofBody table body flaws).log =
      openingLog table body ++ (chapters table body).flatMap Chapter.verdicts := by
  rw [ofBody_of_hasPalette h, chapters, if_pos h]
  exact log_walkBlocks body ⟨openingLog table body, [], []⟩ table

theorem scopes_of_chapters {before behind : List Chapter} {c : Chapter}
    (h : chapters table body = before ++ c :: behind) :
    c.stage.scopes = Entries.putAll [] (before.map Chapter.scope) := by
  unfold chapters at h
  split at h
  · exact scopes_of_chaptersFrom h
  · simp at h

/-- The styles of an analysis come from its chapters. -/
theorem mem_styles {entry : String × Style} (h : entry ∈ (ofBody table body flaws).styles) :
    ∃ c ∈ chapters table body, entry ∈ stylesOf c.log c.rule.name c.tree := by
  by_cases hp : HasPalette table body
  · rw [ofBody_of_hasPalette hp] at h
    rw [chapters, if_pos hp]
    rcases mem_styles_walkBlocks h with h | h
    · cases h
    · exact h
  · rw [ofBody_of_not_hasPalette hp] at h
    cases h

/-- The log of a finished chapter is part of the log of the analysis. -/
theorem log_subset_of_mem_chapters {c : Chapter} (hc : c ∈ chapters table body) :
    ∀ v ∈ c.log, v ∈ (ofBody table body flaws).log := by
  have hp := hasPalette_of_mem_chapters hc
  obtain ⟨before, behind, hchapters⟩ := List.append_of_mem hc
  have hlog : (ofBody table body flaws).log =
      openingLog table body ++ (chapters table body).flatMap Chapter.verdicts :=
    log_of_hasPalette hp
  rw [hchapters, List.flatMap_append, List.flatMap_cons] at hlog
  rw [chapters, if_pos hp] at hchapters
  have hstage := log_of_chaptersFrom hchapters
  intro v hv
  rw [Chapter.log, Progress.log_after, Chapter.start, hstage] at hv
  rw [hlog, Chapter.verdicts]
  simp only [List.mem_append, List.mem_cons, List.not_mem_nil, or_false] at hv ⊢
  rcases hv with ((hv | hv) | hv) | hv
  · exact .inl hv
  · exact .inr (.inl hv)
  · exact .inr (.inr (.inl (.inl (.inl hv))))
  · exact .inr (.inr (.inl (.inl (.inr hv))))

end Analysis

end ColorTheme
