import ColorTheme.Proofs.Account.Finding
import Mathlib.Data.List.Nodup

/-!
# The symbols of an analysis

* `Analysis.findings_pairwise` : no two findings define the same path.
* `Analysis.get?_symbols` : so the table of symbols holds what each finding defines.
-/

set_option autoImplicit false

namespace ColorTheme

theorem Verdict.taken?_of_symbol? {v : Verdict} {path : Path} {name : Span}
    (h : v.symbol? = some (path, name)) : v.taken? = some path := by
  cases v <;> cases h <;> rfl

theorem Log.takes_append_singleton {log : Log} {v : Verdict} {path : Path}
    (h : Log.takes (log ++ [v]) path = false) :
    log.takes path = false ∧ v.taken? ≠ some path := by
  rw [Log.takes, List.any_append, Bool.or_eq_false_iff] at h
  refine ⟨h.1, fun htaken => ?_⟩
  have hlast := h.2
  simp [htaken] at hlast

/-- Two findings define no path in common. -/
def Finding.Apart (f g : Finding) : Prop :=
  ∀ path name other, f.verdict.symbol? = some (path, name) → g.verdict.symbol? ≠ some (path, other)

/-! ## Notes -/

/-- A note defines a path that was free. -/
theorem symbol?_metaVerdict {log : Log} {a : Attribute} {path : Path} {name : Span}
    (h : (metaVerdict log a).symbol? = some (path, name)) :
    path = [metaName, a.name.name] ∧ log.takes path = false := by
  unfold metaVerdict at h
  dsimp only at h
  split at h
  · cases h
  · rename_i hfree
    split at h
    · cases h
      exact ⟨rfl, eq_false_of_ne_true hfree⟩
    · cases h

theorem free_of_mem_noteFindings {log : Log} {attributes : List Attribute} {f : Finding}
    {path : Path} {name : Span} (hf : f ∈ noteFindings log attributes)
    (h : f.verdict.symbol? = some (path, name)) : log.takes path = false := by
  induction attributes generalizing log with
  | nil => cases hf
  | cons a attributes ih =>
    rcases List.mem_cons.1 hf with rfl | hf
    · exact (symbol?_metaVerdict h).2
    · exact (Log.takes_append_singleton (ih hf)).1

theorem noteFindings_pairwise (log : Log) (attributes : List Attribute) :
    (noteFindings log attributes).Pairwise Finding.Apart := by
  induction attributes generalizing log with
  | nil => exact .nil
  | cons a attributes ih =>
    refine .cons ?_ (ih _)
    intro g hg path name other hf hgsymbol
    have hfree := free_of_mem_noteFindings hg hgsymbol
    exact (Log.takes_append_singleton hfree).2 (Verdict.taken?_of_symbol? hf)

/-! ## Chapters -/

/-- What a finding of a chapter defines lies in the block of the chapter. -/
theorem Chapter.head?_of_symbol? {c : Chapter} {f : Finding} {path : Path} {name : Span}
    (hf : f ∈ c.findings) (h : f.verdict.symbol? = some (path, name)) :
    path.head? = some c.rule.name := by
  rcases List.mem_cons.1 hf with rfl | hf
  · cases h; rfl
  · obtain ⟨v, hv, rfl⟩ := List.mem_map.1 hf
    obtain rfl := c.tour.path_of_taken hv (Verdict.taken?_of_symbol? h)
    obtain ⟨names, henclosing, -⟩ := c.tour.enclosing_eq hv
    rw [Visit.path, henclosing]
    rfl

theorem Chapter.findings_pairwise (c : Chapter) : c.findings.Pairwise Finding.Apart := by
  refine .cons ?_ ?_
  · intro f hf path name other hblock hsymbol
    obtain ⟨v, hv, rfl⟩ := List.mem_map.1 hf
    have hpath := c.tour.path_of_taken hv (Verdict.taken?_of_symbol? hsymbol)
    obtain ⟨names, henclosing, -⟩ := c.tour.enclosing_eq hv
    cases hblock
    rw [Visit.path, henclosing] at hpath
    simp at hpath
  · refine List.pairwise_map.2 (c.tour.taken_pairwise.imp ?_)
    intro v w hapart path name other hv hw
    exact hapart path (Verdict.taken?_of_symbol? hv) (Verdict.taken?_of_symbol? hw)

namespace Analysis

variable {table : BlockTable} {body : Body} {flaws : List Flaw} {f : Finding} {path : Path}
  {name : Span}

theorem head?_of_opening (hf : f ∈ openingFindings table body)
    (h : f.verdict.symbol? = some (path, name)) : path.head? = some metaName := by
  rcases noted_or_rejected hf with ⟨a, text, -, -, -, hverdict⟩ | ⟨taken, d, hverdict, -⟩ <;>
    rw [hverdict] at h <;> cases h
  rfl

/-- What defines nothing is apart from everything. -/
theorem pairwise_append_of_silent {fs gs : List Finding}
    (hfs : ∀ f ∈ fs, f.verdict.symbol? = none) (hgs : gs.Pairwise Finding.Apart) :
    (fs ++ gs).Pairwise Finding.Apart := by
  have hapart : ∀ f ∈ fs, ∀ g, f.Apart g := by
    intro f hf g path name other h
    rw [hfs f hf] at h
    cases h
  exact List.pairwise_append.2 ⟨List.pairwise_of_forall_mem_list fun f hf g _ => hapart f hf g,
    hgs, fun f hf g _ => hapart f hf g⟩

theorem openingFindings_pairwise (table : BlockTable) (body : Body) :
    (openingFindings table body).Pairwise Finding.Apart := by
  have houter : ∀ f ∈ outerFindings table body, f.verdict.symbol? = none := by
    intro f hf
    rcases mem_outerFindings.1 hf with ⟨a, -, rfl⟩ | ⟨barred, -, rfl⟩ <;> rfl
  have hinner : ∀ block : Block, ∀ f ∈ innerFindings block, f.verdict.symbol? = none := by
    intro block f hf
    obtain ⟨inner, -, rfl⟩ := List.mem_map.1 hf
    rfl
  refine pairwise_append_of_silent houter ?_
  cases body.block? metaName with
  | none => exact .nil
  | some block =>
    rw [Option.toList_some, List.flatMap_singleton]
    exact pairwise_append_of_silent (hinner block) (noteFindings_pairwise _ _)

/-- **No two findings define the same path.** -/
theorem findings_pairwise (h : Regular table body) :
    (findings table body).Pairwise Finding.Apart := by
  have hsub := (rule_chapters_sublist table body).map BlockRule.name
  rw [List.map_map] at hsub
  refine List.pairwise_append.2 ⟨openingFindings_pairwise table body, ?_, ?_⟩
  · refine List.pairwise_flatMap.2 ⟨fun c _ => c.findings_pairwise, ?_⟩
    refine (List.pairwise_map.1 (h.names.sublist hsub)).imp ?_
    intro c e hne f hf g hg path name other hfsymbol hgsymbol
    have hc := Chapter.head?_of_symbol? hf hfsymbol
    have he := Chapter.head?_of_symbol? hg hgsymbol
    exact hne (Option.some.inj (hc.symm.trans he))
  · intro f hf g hg path name other hfsymbol hgsymbol
    obtain ⟨c, hc, hg⟩ := List.mem_flatMap.1 hg
    have hopening := head?_of_opening hf hfsymbol
    have hchapter := Chapter.head?_of_symbol? hg hgsymbol
    refine h.noMeta (hsub.subset (List.mem_map.2 ⟨c, hc, ?_⟩))
    exact Option.some.inj (hchapter.symm.trans hopening)

/-- Two findings that define the same path are one finding. -/
theorem eq_of_symbol? (h : Regular table body) {g : Finding} {other : Span}
    (hf : f ∈ findings table body) (hg : g ∈ findings table body)
    (hfs : f.verdict.symbol? = some (path, name)) (hgs : g.verdict.symbol? = some (path, other)) :
    f = g := by
  by_contra hne
  have hsymm : Std.Symm Finding.Apart :=
    ⟨fun a b hab path name other hb ha => hab path other name ha hb⟩
  exact (findings_pairwise h).forall hf hg hne path name other hfs hgs

/-- **The table of symbols holds what the findings define, and nothing else.** -/
theorem get?_symbols (h : Regular table body) :
    (ofBody table body flaws).symbols.get? path = some name ↔
      ∃ f ∈ findings table body, f.verdict.symbol? = some (path, name) := by
  have hkeys : (((findings table body).filterMap fun f => f.verdict.symbol?).map Prod.fst).Nodup := by
    rw [List.Nodup, List.pairwise_map, List.pairwise_filterMap]
    refine (findings_pairwise h).imp ?_
    rintro f g hapart ⟨p, s⟩ hf ⟨q, t⟩ hg rfl
    exact hapart p s t hf hg
  rw [symbols, filterMap_log h.palette _ (fun _ _ => rfl), Entries.get?_putAll_nil_iff hkeys,
    List.mem_filterMap]

end Analysis

end ColorTheme
