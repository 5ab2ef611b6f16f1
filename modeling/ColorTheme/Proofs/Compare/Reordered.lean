import ColorTheme.Proofs.Account.Blocks
import ColorTheme.Proofs.Compare.Alike

/-!
# The order of the blocks in a document

The table says in which order blocks are worked out.  Where no two known blocks have the same name,
the order in which they stand in the document has no part in the results: only blocks of unknown
names are reported in the order of the document.

* `Body.Reordered.block?` : each name leads to the same block.
* `Analysis.log_reordered` : behind the verdicts on what stands outside of the known blocks, the logs
  are the same.
* `Analysis.agree_of_reordered` : the analyses agree.
-/

set_option autoImplicit false

namespace ColorTheme

/-- The second document has the attributes of the first, and its blocks in any order. -/
structure Body.Reordered (body other : Body) : Prop where
  attributes : other.attributes = body.attributes
  blocks : other.blocks.Perm body.blocks

/-- No two blocks of the document have the same name, if the table knows it. -/
def Body.NamesOnce (table : BlockTable) (body : Body) : Prop :=
  ((body.blocks.filter fun b => table.knows b.kind.name).map fun b => b.kind.name).Nodup

instance (table : BlockTable) (body : Body) : Decidable (body.NamesOnce table) :=
  inferInstanceAs (Decidable (List.Nodup _))

/-- The verdict on a block of an unknown name. -/
def unknownVerdict (table : BlockTable) (b : Block) : Verdict :=
  .rejected none ⟨.unknownBlock b.kind.name table.blockNames, b.kind.span⟩

/-- What is found but once is found in any order. -/
theorem find?_eq_of_perm {α : Type} {found : α → Bool} {xs ys : List α} (h : ys.Perm xs)
    (honce : (xs.filter found).length ≤ 1) : ys.find? found = xs.find? found := by
  have hfilter := h.filter found
  rw [← List.head?_filter, ← List.head?_filter]
  match hxs : xs.filter found with
  | [] =>
    rw [hxs] at hfilter
    rw [List.perm_nil.1 hfilter]
  | [x] =>
    rw [hxs] at hfilter
    rw [List.perm_singleton.1 hfilter]
  | x :: y :: rest =>
    rw [hxs] at honce
    simp at honce

section

variable {table : BlockTable} {body other : Body}

theorem Body.NamesOnce.length_filter_le {name : String} (h : body.NamesOnce table)
    (hname : table.knows name = true) :
    (body.blocks.filter fun b => b.kind.name == name).length ≤ 1 := by
  have hknown : ∀ b : Block, (b.kind.name == name) = true → table.knows b.kind.name = true := by
    intro b hb
    rw [beq_iff_eq.1 hb]
    exact hname
  have hsub := (List.monotone_filter_right body.blocks hknown).map fun b => b.kind.name
  have hnames : ∀ other ∈ (body.blocks.filter fun b => b.kind.name == name).map
      fun b => b.kind.name, other = name := by
    intro other hother
    obtain ⟨b, hb, rfl⟩ := List.mem_map.1 hother
    exact beq_iff_eq.1 (List.mem_filter.1 hb).2
  have hnodup := List.Nodup.sublist hsub h
  rw [List.eq_replicate_of_mem hnames, List.nodup_replicate, List.length_map] at hnodup
  exact hnodup

/-- **A known name leads to the same block in any order.** -/
theorem Body.Reordered.block? (h : body.Reordered other) (honce : body.NamesOnce table)
    {name : String} (hname : table.knows name = true) : other.block? name = body.block? name :=
  find?_eq_of_perm h.blocks (honce.length_filter_le hname)

/-- Where known names are met but once, only blocks of unknown names are barred. -/
theorem blockVerdicts_eq_map {seen : List String} {blocks : List Block}
    (h : ((blocks.filter fun b => table.knows b.kind.name).map fun b => b.kind.name).Nodup)
    (hseen : ∀ b ∈ blocks, table.knows b.kind.name = true → b.kind.name ∉ seen) :
    blockVerdicts table seen blocks =
      (blocks.filter fun b => !table.knows b.kind.name).map (unknownVerdict table) := by
  induction blocks generalizing seen with
  | nil => rfl
  | cons b blocks ih =>
    have hrest : ∀ c ∈ blocks, table.knows c.kind.name = true → c.kind.name ∉ seen :=
      fun c hc => hseen c (List.mem_cons_of_mem b hc)
    rw [blockVerdicts]
    cases hknown : table.knows b.kind.name with
    | false =>
      rw [List.filter_cons_of_neg (by simp [hknown])] at h
      rw [if_pos rfl, List.filter_cons_of_pos (by simp [hknown]), List.map_cons, ih h hrest]
      rfl
    | true =>
      rw [List.filter_cons_of_pos (by exact hknown), List.map_cons, List.nodup_cons] at h
      rw [if_neg (Bool.false_ne_true ∘ Eq.symm), if_neg (hseen b List.mem_cons_self hknown),
        List.filter_cons_of_neg (by simp [hknown])]
      refine ih h.2 fun c hc hcknown hmem => ?_
      rcases List.mem_cons.1 hmem with heq | hmem
      · exact h.1 (heq ▸ List.mem_map_of_mem (List.mem_filter.2 ⟨hc, hcknown⟩))
      · exact hrest c hc hcknown hmem

theorem Body.Reordered.namesOnce (h : body.Reordered other) (honce : body.NamesOnce table) :
    other.NamesOnce table :=
  ((h.blocks.filter _).map _).nodup_iff.2 honce

/-- The verdicts on the blocks of a document are in the order of the document. -/
theorem Body.Reordered.blockVerdicts (h : body.Reordered other) (honce : body.NamesOnce table) :
    (blockVerdicts table [] other.blocks).Perm (blockVerdicts table [] body.blocks) := by
  rw [blockVerdicts_eq_map honce (by simp), blockVerdicts_eq_map (h.namesOnce honce) (by simp)]
  exact (h.blocks.filter _).map _

end

namespace Analysis

/-- The analyses come to the same results, and report the same, but for the order in which they
report unknown blocks. -/
structure Agree (a b : Analysis) : Prop where
  scopes : b.scopes = a.scopes
  styles : b.styles = a.styles
  notes : b.notes = a.notes
  symbols : b.symbols = a.symbols
  colors : b.colors = a.colors
  diagnostics : ∃ front unknown unknown' behind,
    a.diagnostics = front ++ unknown ++ behind ∧ b.diagnostics = front ++ unknown' ++ behind ∧
      unknown'.Perm unknown ∧ ∀ d ∈ unknown, ∃ name known, d.problem = .unknownBlock name known

variable {table : BlockTable} {body other : Body} {flaws : List Flaw}

theorem hasPalette_reordered (h : body.Reordered other) (honce : body.NamesOnce table) :
    HasPalette table other ↔ HasPalette table body :=
  and_congr_right fun hname => by rw [h.block? honce hname]

/-- The stages at the first block are alike. -/
theorem alike_opening (h : body.Reordered other) (honce : body.NamesOnce table) :
    (Stage.mk (openingLog table body) [] []).Alike ⟨openingLog table other, [], []⟩ :=
  ⟨alike_openingLog (h.block? honce (BlockTable.knows_iff.2 (.inl rfl))), rfl, rfl⟩

theorem block?_of_rule (h : body.Reordered other) (honce : body.NamesOnce table) :
    ∀ rule ∈ table, other.block? rule.name = body.block? rule.name := fun rule hrule =>
  h.block? honce (BlockTable.knows_iff.2 (.inr ⟨rule, hrule, rfl⟩))

theorem alike_finalStage (h : body.Reordered other) (honce : body.NamesOnce table) :
    (finalStage table body).Alike (finalStage table other) :=
  (alike_opening h honce).walkBlocks (block?_of_rule h honce)

/-- **Behind the verdicts on what is not entered, the logs are the same.** -/
theorem log_reordered (h : body.Reordered other) (honce : body.NamesOnce table) :
    ∃ rest, (∀ flaws, (ofBody table body flaws).log =
        outsideVerdicts body ++ blockVerdicts table [] body.blocks ++ rest) ∧
      ∀ flaws, (ofBody table other flaws).log =
        outsideVerdicts other ++ blockVerdicts table [] other.blocks ++ rest := by
  by_cases hpalette : HasPalette table body
  · have hpalette' := (hasPalette_reordered h honce).2 hpalette
    have hmeta : other.block? metaName = body.block? metaName :=
      h.block? honce (BlockTable.knows_iff.2 (.inl rfl))
    have hverdicts : (chapters table other).flatMap Chapter.verdicts =
        (chapters table body).flatMap Chapter.verdicts := by
      rw [chapters, chapters, if_pos hpalette, if_pos hpalette']
      exact flatMap_verdicts_alike ((alike_opening h honce).chaptersFrom (block?_of_rule h honce))
    simp only [log_of_hasPalette hpalette, log_of_hasPalette hpalette', hverdicts]
    rw [openingLog, openingLog, hmeta]
    cases body.block? metaName with
    | none => exact ⟨_, fun _ => rfl, fun _ => rfl⟩
    | some block =>
      dsimp only
      rw [walkMeta_eq, walkMeta_eq, metaFindings_alike (alike_outside table body other)]
      exact ⟨_, fun _ => List.append_assoc _ _ _, fun _ => List.append_assoc _ _ _⟩
  · have hpalette' := mt (hasPalette_reordered h honce).1 hpalette
    simp only [ofBody_of_not_hasPalette hpalette, ofBody_of_not_hasPalette hpalette']
    exact ⟨[], fun _ => (List.append_nil _).symm, fun _ => (List.append_nil _).symm⟩

/-- What is read off a log and not off rejections is the same in both analyses. -/
theorem filterMap_reordered (h : body.Reordered other) (honce : body.NamesOnce table) {α : Type}
    {read : Verdict → Option α} (hread : ∀ d, read (.rejected none d) = none) :
    (ofBody table other flaws).log.filterMap read = (ofBody table body flaws).log.filterMap read := by
  have hsilent (body : Body) (rest : Log) : (outsideVerdicts body ++
      blockVerdicts table [] body.blocks ++ rest).filterMap read = rest.filterMap read := by
    rw [List.filterMap_append, filterMap_outside hread, List.nil_append]
  obtain ⟨rest, hbody, hother⟩ := log_reordered h honce
  rw [hbody flaws, hother flaws, hsilent, hsilent]

theorem scopes_reordered (h : body.Reordered other) (honce : body.NamesOnce table) :
    (ofBody table other flaws).scopes = (ofBody table body flaws).scopes ∧
      (ofBody table other flaws).styles = (ofBody table body flaws).styles := by
  by_cases hpalette : HasPalette table body
  · have hpalette' := (hasPalette_reordered h honce).2 hpalette
    rw [ofBody_of_hasPalette hpalette, ofBody_of_hasPalette hpalette']
    exact ⟨(alike_finalStage h honce).scopes, (alike_finalStage h honce).styles⟩
  · have hpalette' := mt (hasPalette_reordered h honce).1 hpalette
    rw [ofBody_of_not_hasPalette hpalette, ofBody_of_not_hasPalette hpalette']
    exact ⟨rfl, rfl⟩

/-- Only the diagnostics on blocks of unknown names are in the order of the document. -/
theorem diagnostics_reordered (h : body.Reordered other) (honce : body.NamesOnce table) :
    ∃ front unknown unknown' behind,
      (ofBody table body flaws).diagnostics = front ++ unknown ++ behind ∧
      (ofBody table other flaws).diagnostics = front ++ unknown' ++ behind ∧
      unknown'.Perm unknown ∧
      ∀ d ∈ unknown, ∃ name known, d.problem = .unknownBlock name known := by
  obtain ⟨rest, hbody, hother⟩ := log_reordered h honce
  have houtside : outsideVerdicts other = outsideVerdicts body := by
    rw [outsideVerdicts, outsideVerdicts, h.attributes]
  refine ⟨flaws.map Diagnostic.ofFlaw ++ (outsideVerdicts body).filterMap Verdict.diagnostic?,
    (blockVerdicts table [] body.blocks).filterMap Verdict.diagnostic?,
    (blockVerdicts table [] other.blocks).filterMap Verdict.diagnostic?,
    rest.filterMap Verdict.diagnostic? ++
      (if HasPalette table body then [] else [⟨.missingPalette, Span.point 0⟩]), ?_, ?_, ?_, ?_⟩
  · rw [diagnostics_ofBody, hbody]
    simp only [List.filterMap_append, List.append_assoc]
  · rw [diagnostics_ofBody, hother, houtside]
    simp only [List.filterMap_append, List.append_assoc, hasPalette_reordered h honce]
  · exact (h.blockVerdicts honce).filterMap _
  · rw [blockVerdicts_eq_map honce (by simp)]
    intro d hd
    obtain ⟨v, hv, hdiagnostic⟩ := List.mem_filterMap.1 hd
    obtain ⟨b, -, rfl⟩ := List.mem_map.1 hv
    cases hdiagnostic
    exact ⟨b.kind.name, table.blockNames, rfl⟩

/-- **The order of the blocks in a document does not matter**, under any table, if no two known
blocks have the same name. -/
theorem agree_of_reordered (flaws : List Flaw) (h : body.Reordered other)
    (honce : body.NamesOnce table) :
    (ofBody table body flaws).Agree (ofBody table other flaws) where
  scopes := (scopes_reordered h honce).1
  styles := (scopes_reordered h honce).2
  notes := filterMap_reordered h honce fun _ => rfl
  symbols := by rw [symbols, symbols, filterMap_reordered h honce fun _ => rfl]
  colors := filterMap_reordered h honce fun _ => rfl
  diagnostics := diagnostics_reordered h honce

/-- A document with two blocks of unknown names, and a theme that stands before the palette. -/
def mixedSource : String :=
  "colors \x7b \x7d\n theme \x7b y = palette.x \x7d\n z = 1\n fonts \x7b \x7d\n" ++
    "palette \x7b x = #010203 \x7d"

theorem agree_of_reordered_mixedSource :
    Body.Reordered (Body.read mixedSource).items (Body.read mixedSource).items.reverse ∧
      (Body.read mixedSource).items.NamesOnce .standard ∧
      (ofBody .standard (Body.read mixedSource).items []).Agree
        (ofBody .standard (Body.read mixedSource).items.reverse []) := by
  have hattributes : (Body.read mixedSource).items.attributes.length = 1 := by decide +kernel
  obtain ⟨a, ha⟩ := List.length_eq_one_iff.1 hattributes
  have hblocks : Body.Reordered (Body.read mixedSource).items
      (Body.read mixedSource).items.reverse := by
    constructor
    · rw [Body.attributes, List.filterMap_reverse]
      exact (congrArg List.reverse ha).trans ha.symm
    · rw [Body.blocks, Body.blocks, List.filterMap_reverse]
      exact List.reverse_perm _
  have honce : (Body.read mixedSource).items.NamesOnce .standard := by decide +kernel
  exact ⟨hblocks, honce, agree_of_reordered [] hblocks honce⟩

end Analysis

end ColorTheme
