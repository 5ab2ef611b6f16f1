import ColorTheme.Proofs.Editor.Clamping
import ColorTheme.Proofs.Text.Line

/-!
# Two ways to count lines

Editors count a line at each break of Unicode, highlighting counts one at each line feed.

* `FeedsOnly` : all breaks of a text are line feeds, or line feeds behind carriage returns.
* `positionInLines_eq_foldl` : in such a text the places on the lines are those that are counted
  character by character.
* `Document.positions_agree_iff` : the two counts agree on these texts, and on no others.
-/

set_option autoImplicit false

namespace ColorTheme

/-- Of the line breaks only the line feed stands in the text, alone or behind a carriage return,
and nowhere else does a carriage return stand. -/
structure FeedsOnly (cs : List Char) : Prop where
  plain : ∀ c ∈ ['\x0b', '\x0c', '\u0085', '\u2028', '\u2029'], c ∉ cs
  paired : ∀ before after, cs = before ++ '\r' :: after → after.head? = some '\n'

theorem FeedsOnly.of_append {a b : List Char} (h : FeedsOnly (a ++ b)) : FeedsOnly b where
  plain c hc hmem := h.plain c hc (List.mem_append_right a hmem)
  paired before after hb := h.paired (a ++ before) after (by rw [hb, List.append_assoc])

/-- A line of such a text, with its break, is a text without line feed and a line feed. -/
theorem FeedsOnly.exists_line {content ending rest : List Char}
    (h : FeedsOnly (content ++ ending ++ rest)) (hcontent : Unbroken content)
    (hbreak : ending ∈ lineBreaks) (hwhole : ending = ['\r'] → rest.head? ≠ some '\n') :
    ∃ inside, content ++ ending = inside ++ ['\n'] ∧ '\n' ∉ inside := by
  have hfeed : '\n' ∉ content := by
    intro hmem
    have := hcontent '\n' hmem
    revert this
    decide
  rcases mem_lineBreaks.1 hbreak with rfl | ⟨c, hc, rfl⟩
  · exact ⟨content ++ ['\r'], by simp, by simp [hfeed]⟩
  · by_cases hreturn : c = '\r'
    · subst hreturn
      exact absurd (h.paired content rest (by simp)) (hwhole rfl)
    · have hplain : c ∉ ['\x0b', '\x0c', '\u0085', '\u2028', '\u2029'] :=
        fun hmem => h.plain c hmem (by simp)
      have hc : c = '\n' := by
        simp only [isLineBreak, Bool.or_eq_true, beq_iff_eq] at hc
        simp only [List.mem_cons, List.not_mem_nil, or_false] at hplain
        tauto
      exact ⟨content, by rw [hc], hfeed⟩

/-! ## Character by character -/

namespace Position

theorem foldl_step_of_not_mem {cs : List Char} (h : '\n' ∉ cs) (p : Position) :
    cs.foldl step p = p.right cs.length := by
  induction cs generalizing p with
  | nil => rfl
  | cons c cs ih =>
    rw [List.mem_cons, not_or] at h
    rw [List.foldl_cons, step, if_neg (Ne.symm h.1), ih h.2, List.length_cons]
    simp only [right, Position.mk.injEq, true_and]
    omega

theorem foldl_step_line {inside : List Char} (h : '\n' ∉ inside) (p : Position) :
    (inside ++ ['\n']).foldl step p = ⟨p.line + 1, 0⟩ := by
  rw [List.foldl_append, foldl_step_of_not_mem h]
  simp [step, right]

end Position

/-- **The places on the lines are those that are counted character by character.** -/
theorem positionInLines_eq_foldl {lines : List (List Char)} (hlines : IsLines lines)
    (h : FeedsOnly lines.flatten) {index : Nat} (hindex : index ≤ lines.flatten.length)
    (number : Nat) : positionInLines number index lines =
      (lines.flatten.take index).foldl Position.step ⟨number, 0⟩ := by
  induction hlines generalizing index number with
  | @last content unbroken =>
    have hfeed : '\n' ∉ content.take index := by
      intro hmem
      have := unbroken '\n' (List.mem_of_mem_take hmem)
      revert this
      decide
    rw [List.flatten_singleton] at hindex ⊢
    rw [Position.foldl_step_of_not_mem hfeed, List.length_take, Nat.min_eq_left hindex]
    simp [positionInLines, Position.right]
  | @more content ending lines unbroken break_mem whole rest ih =>
    rw [List.flatten_cons] at h hindex ⊢
    obtain ⟨inside, hline, hfeed⟩ := h.exists_line unbroken break_mem whole
    have hlength : (content ++ ending).length = inside.length + 1 := by
      rw [hline, List.length_append, List.length_singleton]
    rcases Nat.lt_or_ge index (content ++ ending).length with hlt | hge
    · have hstop : '\n' ∉ inside.take index := fun hmem => hfeed (List.mem_of_mem_take hmem)
      rw [positionInLines_of_lt hlt, List.take_append_of_le_length (Nat.le_of_lt hlt), hline,
        List.take_append_of_le_length (by omega), Position.foldl_step_of_not_mem hstop,
        List.length_take, Nat.min_eq_left (by omega)]
      simp [Position.right]
    · obtain ⟨further, rfl⟩ := Nat.exists_eq_add_of_le hge
      have hsum : (content ++ ending ++ lines.flatten).length =
          (content ++ ending).length + lines.flatten.length := List.length_append
      have hnext := positionInLines_append rest.ne_nil [content ++ ending] number further
      rw [List.flatten_singleton, List.singleton_append] at hnext
      rw [hnext, List.take_length_add_append, List.foldl_append, hline,
        Position.foldl_step_line hfeed, ih h.of_append (by omega)]
      rfl

namespace Document

variable {d : Document} {before after : List Char} {c : Char}

/-- Behind a break that ends its line one stands at the start of a line. -/
theorem character_behind_break (h : d.chars = before ++ c :: after) (hbreak : isLineBreak c = true)
    (hwhole : c = '\r' → after.head? ≠ some '\n') :
    (d.position (byteLength (before ++ [c]))).character = 0 := by
  obtain ⟨lines, hflat, hlines⟩ := splitLines_append_break hbreak hwhole before
  have hcut : d.chars = (before ++ [c]) ++ after := by rw [h, List.append_assoc]; rfl
  have hplace := positionInLines_append (splitLines_ne_nil after) lines 0 0
  rw [(isLines_splitLines after).positionInLines_zero, hflat, Nat.add_zero] at hplace
  rw [position_byteLength hcut, positionOfChar, Document.lines, h, hlines, hplace]

/-- Where both counts agree, only a line feed ends a line. -/
theorem eq_lineFeed_of_agree
    (hagree : ∀ offset, IsBoundary d.chars offset →
      Position.ofOffset d.chars offset = d.position offset)
    (h : d.chars = before ++ c :: after) (hbreak : isLineBreak c = true)
    (hwhole : c = '\r' → after.head? ≠ some '\n') : c = '\n' := by
  have hcut : d.chars = (before ++ [c]) ++ after := by rw [h, List.append_assoc]; rfl
  have hsame := hagree _ (isBoundary_iff.2 ⟨_, after, hcut, rfl⟩)
  have hstart := character_behind_break h hbreak hwhole
  rw [← hsame, hcut, Position.ofOffset_append] at hstart
  rcases Decidable.em (c = '\n') with hc | hc
  · exact hc
  · -- any other character is counted along its line
    have hfeed : '\n' ∉ [c] := by
      rw [List.mem_singleton]
      exact Ne.symm hc
    rw [Position.behind_append hfeed] at hstart
    simp [Position.right] at hstart

/-- **The two counts agree exactly on texts without other breaks.**  The position at which
highlighting sees each byte offset is that at which all else sees it, if and only if the text has
no break but line feeds, alone or behind carriage returns, and no carriage return elsewhere. -/
theorem positions_agree_iff (d : Document) :
    (∀ offset, IsBoundary d.chars offset →
      Position.ofOffset d.chars offset = d.position offset) ↔ FeedsOnly d.chars := by
  constructor
  · intro hagree
    constructor
    case plain =>
      intro c hc hmem
      obtain ⟨before, after, hcut⟩ := List.append_of_mem hmem
      have hbreak : isLineBreak c = true ∧ c ≠ '\r' ∧ c ≠ '\n' := by
        simp only [List.mem_cons, List.not_mem_nil, or_false] at hc
        rcases hc with rfl | rfl | rfl | rfl | rfl <;> decide
      exact hbreak.2.2
        (eq_lineFeed_of_agree hagree hcut hbreak.1 fun hreturn => absurd hreturn hbreak.2.1)
    case paired =>
      intro before after hcut
      by_contra hlone
      have hreturn := eq_lineFeed_of_agree hagree hcut (by decide) fun _ => hlone
      revert hreturn
      decide
  · intro h offset hoffset
    obtain ⟨before, after, hcut, rfl⟩ := isBoundary_iff.1 hoffset
    have hflat : (splitLines d.chars).flatten = before ++ after := by
      rw [flatten_splitLines, hcut]
    rw [hcut, ← hflat] at h
    have hindex : before.length ≤ (splitLines d.chars).flatten.length := by
      rw [hflat, List.length_append]
      omega
    rw [position_byteLength hcut, positionOfChar, Document.lines,
      positionInLines_eq_foldl (isLines_splitLines d.chars) h hindex, hflat, List.take_left,
      Position.foldl_step, hcut, Position.ofOffset_append]

end Document

end ColorTheme
