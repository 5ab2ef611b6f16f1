import ColorTheme.Proofs.Walk.Chapter

/-!
# The findings of an analysis

All the items that the analysis comes to, outside of the blocks and inside, each with the verdict
on it, in the order of the log.

* `Analysis.findings` : the findings; only the `meta` block, which is entered without a verdict,
  is not among them.
* `Analysis.filterMap_log` : what can be read off the log can be read off the findings.
* `Analysis.accepted_or_rejected` : a finding either defines the path of its item at the place of
  its name, or it is an error there or at the value.
-/

set_option autoImplicit false

namespace ColorTheme

/-- An item that the analysis comes to, the path of the block around it, and the verdict on it. -/
structure Finding where
  enclosing : Path
  item : Item
  verdict : Verdict

namespace Finding

/-- The full path of the item. -/
def path (f : Finding) : Path := f.enclosing ++ [f.item.name.name]

/-- The item is accepted: its path is defined, at the place of its name. -/
def Accepted (f : Finding) : Prop := f.verdict.symbol? = some (f.path, f.item.name.span)

/-- The item is rejected: with one error, at the place of its name or of its value. -/
def Rejected (f : Finding) : Prop :=
  ∃ taken d, f.verdict = .rejected taken d ∧ d.isError = true ∧
    (d.span = f.item.name.span ∨ ∃ a, f.item = .assignment a ∧ d.span = a.value.span)

end Finding

/-- The finding of a visit. -/
def Visit.finding (v : Visit) : Finding := ⟨v.enclosing, v.item, v.verdict⟩

/-- The item that a block is. -/
def Block.item (b : Block) : Item := .block b.kind b.body b.span

@[simp] theorem Block.name_item (b : Block) : b.item.name = b.kind := rfl

theorem Body.mem_blocks {body : Body} {b : Block} : b ∈ body.blocks ↔ b.item ∈ body := by
  unfold Body.blocks
  rw [List.mem_filterMap]
  constructor
  · rintro ⟨item, hitem, hb⟩
    cases item with
    | assignment a => cases hb
    | block kind inner span => cases hb; exact hitem
  · exact fun h => ⟨b.item, h, rfl⟩

theorem Body.mem_attributes {body : Body} {a : Attribute} :
    a ∈ body.attributes ↔ .assignment a ∈ body := by
  simp [Body.attributes, Item.assignment?_eq_some_iff]

theorem Body.name_of_block? {body : Body} {name : String} {b : Block}
    (h : body.block? name = some b) : b.kind.name = name := by
  have hname := List.find?_some h
  simpa using hname

/-! ## Outside of the blocks -/

/-- The findings on attributes outside of all blocks. -/
def outsideFindings (body : Body) : List Finding :=
  body.attributes.map fun a =>
    ⟨[], .assignment a, .rejected none ⟨.topLevelAttribute a.name.name, a.name.span⟩⟩

/-- The blocks of the document that are not entered, each with the reason. -/
def barredBlocks (table : BlockTable) (seen : List String) : List Block → List (Block × Problem)
  | [] => []
  | block :: blocks =>
    let name := block.kind.name
    if table.knows name = false then
      (block, .unknownBlock name table.blockNames) :: barredBlocks table seen blocks
    else if name ∈ seen then (block, .duplicateBlock name) :: barredBlocks table seen blocks
    else barredBlocks table (name :: seen) blocks

/-- The finding on a block that is not entered. -/
def barredFinding (barred : Block × Problem) : Finding :=
  ⟨[], barred.1.item, .rejected none ⟨barred.2, barred.1.kind.span⟩⟩

theorem map_verdict_outsideFindings (body : Body) :
    (outsideFindings body).map Finding.verdict = outsideVerdicts body := by
  simp [outsideFindings, outsideVerdicts]

theorem map_verdict_barredBlocks (table : BlockTable) (seen : List String) (blocks : List Block) :
    ((barredBlocks table seen blocks).map barredFinding).map Finding.verdict =
      blockVerdicts table seen blocks := by
  induction blocks generalizing seen with
  | nil => rfl
  | cons block blocks ih =>
    rw [barredBlocks, blockVerdicts]
    split
    · rw [List.map_cons, List.map_cons, ih]; rfl
    · split
      · rw [List.map_cons, List.map_cons, ih]; rfl
      · exact ih _

/-- What stands outside of all blocks, and a block that is not entered, is rejected and takes no
path. -/
theorem rejected_of_mem_outside {table : BlockTable} {seen : List String} {body : Body}
    {v : Verdict} (h : v ∈ outsideVerdicts body ++ blockVerdicts table seen body.blocks) :
    ∃ d, v = .rejected none d := by
  rcases List.mem_append.1 h with h | h
  · obtain ⟨a, -, rfl⟩ := List.mem_map.1 h
    exact ⟨_, rfl⟩
  · rw [← map_verdict_barredBlocks, List.map_map] at h
    obtain ⟨barred, -, rfl⟩ := List.mem_map.1 h
    exact ⟨_, rfl⟩

/-- So nothing but its diagnostic can be read off such a verdict. -/
theorem filterMap_outside {α : Type} {read : Verdict → Option α}
    (hread : ∀ d, read (.rejected none d) = none) (table : BlockTable) (body : Body) :
    (outsideVerdicts body ++ blockVerdicts table [] body.blocks).filterMap read = [] := by
  refine List.filterMap_eq_nil_iff.2 fun v hv => ?_
  obtain ⟨d, rfl⟩ := rejected_of_mem_outside hv
  exact hread d

theorem severity_of_mem_barredBlocks {table : BlockTable} {seen : List String}
    {blocks : List Block} {barred : Block × Problem} (h : barred ∈ barredBlocks table seen blocks) :
    barred.2.severity = .error := by
  induction blocks generalizing seen with
  | nil => cases h
  | cons block blocks ih =>
    rw [barredBlocks] at h
    split at h
    · rcases List.mem_cons.1 h with rfl | h
      · rfl
      · exact ih h
    · split at h
      · rcases List.mem_cons.1 h with rfl | h
        · rfl
        · exact ih h
      · exact ih h

/-! ## Inside the `meta` block -/

/-- The findings on blocks inside the `meta` block. -/
def innerFindings (block : Block) : List Finding :=
  block.body.blocks.map fun inner =>
    ⟨[metaName], inner.item, .rejected none ⟨.blockInside metaName, inner.kind.span⟩⟩

/-- The findings on attributes of the `meta` block. -/
def noteFindings (log : Log) : List Attribute → List Finding
  | [] => []
  | a :: attributes =>
    ⟨[metaName], .assignment a, metaVerdict log a⟩ ::
      noteFindings (log ++ [metaVerdict log a]) attributes

/-- The findings on the items of the `meta` block. -/
def metaFindings (log : Log) (block : Block) : List Finding :=
  innerFindings block ++
    noteFindings (log ++ (innerFindings block).map Finding.verdict) block.body.attributes

theorem foldl_metaVerdict (log : Log) (attributes : List Attribute) :
    attributes.foldl (fun log a => log ++ [metaVerdict log a]) log =
      log ++ (noteFindings log attributes).map Finding.verdict := by
  induction attributes generalizing log with
  | nil => simp [noteFindings]
  | cons a attributes ih => rw [List.foldl_cons, ih, noteFindings]; simp

theorem walkMeta_eq (log : Log) (block : Block) :
    walkMeta log block = log ++ (metaFindings log block).map Finding.verdict := by
  have hinner : (innerFindings block).map Finding.verdict = block.body.blocks.map fun inner =>
      Verdict.rejected none ⟨.blockInside metaName, inner.kind.span⟩ := by
    simp [innerFindings]
  rw [walkMeta, foldl_metaVerdict, metaFindings, hinner, List.map_append, hinner,
    List.append_assoc]

/-- What is found on an attribute of the `meta` block. -/
theorem mem_noteFindings {log : Log} {attributes : List Attribute} {f : Finding}
    (h : f ∈ noteFindings log attributes) :
    ∃ a ∈ attributes, ∃ log, f = ⟨[metaName], .assignment a, metaVerdict log a⟩ := by
  induction attributes generalizing log with
  | nil => cases h
  | cons a attributes ih =>
    rcases List.mem_cons.1 h with rfl | h
    · exact ⟨a, List.mem_cons_self, log, rfl⟩
    · obtain ⟨b, hb, hf⟩ := ih h
      exact ⟨b, List.mem_cons_of_mem a hb, hf⟩

theorem exists_noteFinding {a : Attribute} (log : Log) {attributes : List Attribute}
    (ha : a ∈ attributes) :
    ∃ f ∈ noteFindings log attributes, f.enclosing = [metaName] ∧ f.item = .assignment a := by
  induction attributes generalizing log with
  | nil => cases ha
  | cons b attributes ih =>
    rcases List.mem_cons.1 ha with rfl | ha
    · exact ⟨_, List.mem_cons_self, rfl, rfl⟩
    · obtain ⟨f, hf, hfound⟩ := ih _ ha
      exact ⟨f, List.mem_cons_of_mem _ hf, hfound⟩

theorem mem_metaFindings {log : Log} {block : Block} {f : Finding} :
    f ∈ metaFindings log block ↔
      (∃ inner ∈ block.body.blocks,
        ⟨[metaName], inner.item, .rejected none ⟨.blockInside metaName, inner.kind.span⟩⟩ = f) ∨
      f ∈ noteFindings (log ++ (innerFindings block).map Finding.verdict) block.body.attributes := by
  rw [metaFindings, innerFindings, List.mem_append, List.mem_map]

/-- An attribute of the `meta` block is taken down as a note, or it is rejected. -/
theorem metaVerdict_cases (log : Log) (a : Attribute) :
    (∃ text, literalText? a.value = some text ∧
      metaVerdict log a = .noted a.name.name a.name.span text) ∨
    (⟨[metaName], .assignment a, metaVerdict log a⟩ : Finding).Rejected := by
  unfold metaVerdict
  dsimp only
  split
  · exact .inr ⟨_, _, rfl, rfl, .inl rfl⟩
  · split
    · rename_i text htext
      exact .inl ⟨text, htext, rfl⟩
    · exact .inr ⟨_, _, rfl, rfl, .inr ⟨a, rfl, rfl⟩⟩

/-! ## Inside the blocks of the table -/

/-- The findings of a chapter: on its block, and on the items that are visited in it. -/
def Chapter.findings (c : Chapter) : List Finding :=
  ⟨[], c.block.item, .opened [c.rule.name] c.block.kind.span⟩ :: c.visits.map Visit.finding

theorem Chapter.verdicts_eq (c : Chapter) :
    c.verdicts = c.findings.map Finding.verdict ++ completenessVerdicts c.rule c.block := by
  simp [Chapter.verdicts, Chapter.findings, Visit.finding]

/-- That a block is not complete is a warning. -/
theorem warning_of_mem_completenessVerdicts {rule : BlockRule} {block : Block} {v : Verdict}
    (h : v ∈ completenessVerdicts rule block) : ∃ d, v = .incomplete d ∧ d.isError = false := by
  unfold completenessVerdicts at h
  split at h
  · cases h
  · dsimp only at h
    split at h
    · cases h
    · exact ⟨_, List.mem_singleton.1 h, rfl⟩

/-- What is visited is accepted or rejected. -/
theorem Judged.accepted_or_rejected {frame : Frame} {p : Progress} {v : Visit}
    (h : Judged frame p v.enclosing v.item v.verdict) :
    v.finding.Accepted ∨ v.finding.Rejected := by
  obtain ⟨rule, enclosing, item, verdict⟩ := v
  cases hverdict : verdict with
  | rejected taken d =>
    dsimp only at h
    rw [hverdict] at h
    exact .inr ⟨taken, d, rfl, h.rejected⟩
  | incomplete d =>
    dsimp only at h
    rw [hverdict] at h
    cases h
  | noted key name text =>
    dsimp only at h
    rw [hverdict] at h
    cases h
  | colored path name _ | flagged path name _ _ | opened path name =>
    dsimp only at h
    rw [hverdict] at h
    obtain ⟨rfl, rfl⟩ := h.symbol rfl
    exact .inl rfl

namespace Analysis

/-- The blocks of the table are told apart by their names, `meta` is none of them, and the document
has a palette. -/
structure Regular (table : BlockTable) (body : Body) : Prop where
  names : (table.map BlockRule.name).Nodup
  noMeta : metaName ∉ table.map BlockRule.name
  palette : HasPalette table body

/-- The findings on what stands in the document itself, and is not entered. -/
def outerFindings (table : BlockTable) (body : Body) : List Finding :=
  outsideFindings body ++ (barredBlocks table [] body.blocks).map barredFinding

/-- The findings before the first block of the table is entered. -/
def openingFindings (table : BlockTable) (body : Body) : List Finding :=
  outerFindings table body ++
    (body.block? metaName).toList.flatMap
      (metaFindings ((outerFindings table body).map Finding.verdict))

/-- **The findings of an analysis.** -/
def findings (table : BlockTable) (body : Body) : List Finding :=
  openingFindings table body ++ (chapters table body).flatMap Chapter.findings

variable {table : BlockTable} {body : Body} {flaws : List Flaw} {f : Finding}

theorem map_verdict_openingFindings (table : BlockTable) (body : Body) :
    (openingFindings table body).map Finding.verdict = openingLog table body := by
  have houter : (outerFindings table body).map Finding.verdict =
      outsideVerdicts body ++ blockVerdicts table [] body.blocks := by
    rw [outerFindings, List.map_append, map_verdict_outsideFindings, map_verdict_barredBlocks]
  rw [openingFindings, openingLog, List.map_append, houter]
  cases body.block? metaName with
  | some block =>
    rw [Option.toList_some, List.flatMap_singleton]
    exact (walkMeta_eq _ block).symm
  | none => exact List.append_nil _

/-- What is read off the log, and not off the verdicts on completeness, can be read off the
findings. -/
theorem filterMap_log {α : Type} (h : HasPalette table body) (read : Verdict → Option α)
    (hread : ∀ d, d.isError = false → read (.incomplete d) = none) :
    (ofBody table body flaws).log.filterMap read =
      (findings table body).filterMap fun f => read f.verdict := by
  have hcomplete : ∀ c : Chapter, (completenessVerdicts c.rule c.block).filterMap read = [] := by
    intro c
    refine List.filterMap_eq_nil_iff.2 fun v hv => ?_
    obtain ⟨d, rfl, hd⟩ := warning_of_mem_completenessVerdicts hv
    exact hread d hd
  have hchapter : ∀ c : Chapter,
      c.verdicts.filterMap read = c.findings.filterMap fun f => read f.verdict := by
    intro c
    rw [c.verdicts_eq, List.filterMap_append, hcomplete, List.append_nil, List.filterMap_map]
    rfl
  rw [log_of_hasPalette h, findings, List.filterMap_append, List.filterMap_append,
    ← map_verdict_openingFindings, List.filterMap_map, List.filterMap_flatMap,
    List.filterMap_flatMap]
  simp only [hchapter]
  rfl

theorem finding_mem_of_chapter {c : Chapter} (hc : c ∈ chapters table body)
    (hf : f ∈ c.findings) : f ∈ findings table body :=
  List.mem_append_right _ (List.mem_flatMap.2 ⟨c, hc, hf⟩)

theorem finding_mem_of_visit {c : Chapter} (hc : c ∈ chapters table body) {v : Visit}
    (hv : v ∈ c.visits) : v.finding ∈ findings table body :=
  finding_mem_of_chapter hc (List.mem_cons_of_mem _ (List.mem_map_of_mem hv))

theorem mem_outerFindings : f ∈ outerFindings table body ↔
    (∃ a ∈ body.attributes,
      ⟨[], .assignment a, .rejected none ⟨.topLevelAttribute a.name.name, a.name.span⟩⟩ = f) ∨
    ∃ barred ∈ barredBlocks table [] body.blocks, barredFinding barred = f := by
  rw [outerFindings, outsideFindings, List.mem_append, List.mem_map, List.mem_map]

theorem mem_openingFindings : f ∈ openingFindings table body ↔
    f ∈ outerFindings table body ∨ ∃ block, body.block? metaName = some block ∧
      f ∈ metaFindings ((outerFindings table body).map Finding.verdict) block := by
  rw [openingFindings, List.mem_append, List.mem_flatMap]
  simp only [Option.mem_toList]

/-- Outside of the blocks of the table, an item is taken down as a note or it is rejected. -/
theorem noted_or_rejected (h : f ∈ openingFindings table body) :
    (∃ a text, f.enclosing = [metaName] ∧ f.item = .assignment a ∧
      literalText? a.value = some text ∧ f.verdict = .noted a.name.name a.name.span text) ∨
    f.Rejected := by
  rcases mem_openingFindings.1 h with h | ⟨block, -, h⟩
  · rcases mem_outerFindings.1 h with ⟨a, -, rfl⟩ | ⟨barred, hbarred, rfl⟩
    · exact .inr ⟨_, _, rfl, rfl, .inl rfl⟩
    · refine .inr ⟨_, _, rfl, ?_, .inl rfl⟩
      rw [Diagnostic.isError, severity_of_mem_barredBlocks hbarred]
      rfl
  · rcases mem_metaFindings.1 h with ⟨inner, -, rfl⟩ | h
    · exact .inr ⟨_, _, rfl, rfl, .inl rfl⟩
    · obtain ⟨a, -, log, rfl⟩ := mem_noteFindings h
      rcases metaVerdict_cases log a with ⟨text, htext, hverdict⟩ | h
      · exact .inl ⟨a, text, rfl, rfl, htext, hverdict⟩
      · exact .inr h

/-- **A finding is an accepted item or a rejected one.** -/
theorem accepted_or_rejected (h : f ∈ findings table body) : f.Accepted ∨ f.Rejected := by
  rcases List.mem_append.1 h with h | h
  · rcases noted_or_rejected h with ⟨a, text, henclosing, hitem, -, hverdict⟩ | h
    · left
      unfold Finding.Accepted Finding.path
      rw [hverdict, henclosing, hitem]
      rfl
    · exact .inr h
  · obtain ⟨c, hc, h⟩ := List.mem_flatMap.1 h
    rcases List.mem_cons.1 h with rfl | h
    · left
      unfold Finding.Accepted Finding.path
      rw [Block.name_item, Body.name_of_block? (block?_of_mem_chapters hc)]
      rfl
    · obtain ⟨v, hv, rfl⟩ := List.mem_map.1 h
      obtain ⟨p, hp⟩ := c.tour.exists_judged hv
      exact hp.accepted_or_rejected

end Analysis

end ColorTheme
