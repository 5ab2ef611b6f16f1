import ColorTheme.Text.Lines

/-!
# How lines end

* `IsLines` : texts of which each ends at its first line break, but for the last one, which has
  none.
* `isLines_splitLines` : the lines of a text are such texts.
* `splitLines_append_break` : a line break ends its line, whatever stands behind it.
-/

set_option autoImplicit false

namespace ColorTheme

/-- The texts that end a line. -/
def lineBreaks : List (List Char) :=
  [['\n'], ['\r'], ['\r', '\n'], ['\x0b'], ['\x0c'], ['\u0085'], ['\u2028'], ['\u2029']]

/-- No line ends inside of the text. -/
def Unbroken (cs : List Char) : Prop := ∀ c ∈ cs, isLineBreak c = false

/-- Each of the texts is a content without breaks and one break, and the last one a content only.
A line feed behind a carriage return belongs to the same break. -/
inductive IsLines : List (List Char) → Prop
  | last {content : List Char} (unbroken : Unbroken content) : IsLines [content]
  | more {content ending : List Char} {lines : List (List Char)} (unbroken : Unbroken content)
      (break_mem : ending ∈ lineBreaks)
      (whole : ending = ['\r'] → lines.flatten.head? ≠ some '\n') (rest : IsLines lines) :
      IsLines ((content ++ ending) :: lines)

theorem Unbroken.nil : Unbroken [] := by
  intro c hc
  cases hc

theorem Unbroken.cons {c : Char} {cs : List Char} (hc : isLineBreak c = false) (h : Unbroken cs) :
    Unbroken (c :: cs) := by
  intro d hd
  rcases List.mem_cons.1 hd with rfl | hd
  · exact hc
  · exact h d hd

theorem ne_nil_of_mem_lineBreaks {ending : List Char} (h : ending ∈ lineBreaks) : ending ≠ [] := by
  rintro rfl
  revert h
  decide

/-- A break is both characters of a carriage return and a line feed, or one character. -/
theorem mem_lineBreaks {ending : List Char} :
    ending ∈ lineBreaks ↔ ending = ['\r', '\n'] ∨ ∃ c, isLineBreak c = true ∧ ending = [c] := by
  constructor
  · intro h
    simp only [lineBreaks, List.mem_cons, List.not_mem_nil, or_false] at h
    rcases h with rfl | rfl | rfl | rfl | rfl | rfl | rfl | rfl
    case inr.inr.inl => exact .inl rfl
    all_goals exact .inr ⟨_, rfl, rfl⟩
  · rintro (rfl | ⟨c, hc, rfl⟩)
    · decide
    · simp only [isLineBreak, Bool.or_eq_true, beq_iff_eq] at hc
      rcases hc with (((((rfl | rfl) | rfl) | rfl) | rfl) | rfl) | rfl <;> decide

/-- **The lines of a text end at their first break.** -/
theorem isLines_splitLines (cs : List Char) : IsLines (splitLines cs) := by
  fun_induction splitLines cs with
  | case1 => exact .last .nil
  | case2 cs ih =>
    have hbreak : ['\r', '\n'] ∈ lineBreaks := by decide
    exact .more .nil hbreak (by simp) ih
  | case3 c cs hpair hbreak ih =>
    refine .more .nil (mem_lineBreaks.2 (.inr ⟨c, hbreak, rfl⟩)) ?_ ih
    intro hc hhead
    rw [flatten_splitLines] at hhead
    obtain ⟨rest, rfl⟩ := List.head?_eq_some_iff.1 hhead
    exact hpair rest (List.cons.inj hc).1 rfl
  | case4 c cs _ _ hnil ih => exact absurd hnil (splitLines_ne_nil cs)
  | case5 c cs _ hbreak first rest hlines ih =>
    rw [hlines] at ih
    have hc := eq_false_of_ne_true hbreak
    cases ih with
    | last unbroken => exact .last (unbroken.cons hc)
    | more unbroken break_mem whole rest => exact .more (unbroken.cons hc) break_mem whole rest

namespace IsLines

variable {lines : List (List Char)}

theorem ne_nil (h : IsLines lines) : lines ≠ [] := by
  cases h <;> simp

theorem tail {first second : List Char} {rest : List (List Char)}
    (h : IsLines (first :: second :: rest)) : IsLines (second :: rest) := by
  cases h with
  | more unbroken break_mem whole rest => exact rest

/-- From any line on, the lines are lines. -/
theorem drop (h : IsLines lines) {n : Nat} (hn : n < lines.length) : IsLines (lines.drop n) := by
  induction n generalizing lines with
  | zero => exact h
  | succ n ih =>
    cases h with
    | last unbroken => simp at hn
    | more unbroken break_mem whole rest => exact ih rest (by simpa using hn)

end IsLines

/-! ## Where a line ends -/

theorem splitLines_of_break {c : Char} {cs : List Char} (hbreak : isLineBreak c = true)
    (hwhole : c = '\r' → cs.head? ≠ some '\n') : splitLines (c :: cs) = [c] :: splitLines cs := by
  have hpair : ∀ rest, c = '\r' → cs = '\n' :: rest → False := by
    intro rest hc hcs
    exact hwhole hc (by simp [hcs])
  rw [splitLines, if_pos hbreak]
  exact hpair

theorem splitLines_of_not_break {c : Char} {cs first : List Char} {rest : List (List Char)}
    (hc : isLineBreak c = false) (h : splitLines cs = first :: rest) :
    splitLines (c :: cs) = (c :: first) :: rest := by
  rw [splitLines, h]
  · simp [hc]
  · rintro rest rfl -
    revert hc
    decide

/-- **A line break ends its line**, whatever stands behind it. -/
theorem splitLines_append_break {c : Char} {after : List Char} (hbreak : isLineBreak c = true)
    (hwhole : c = '\r' → after.head? ≠ some '\n') : ∀ before : List Char,
    ∃ lines, lines.flatten = before ++ [c] ∧
      splitLines (before ++ c :: after) = lines ++ splitLines after
  | [] => ⟨[[c]], rfl, splitLines_of_break hbreak hwhole⟩
  | b :: before => by
    by_cases hpair : b = '\r' ∧ (before ++ c :: after).head? = some '\n'
    · obtain ⟨rfl, hhead⟩ := hpair
      cases before with
      | nil =>
        obtain rfl : c = '\n' := by simpa using hhead
        exact ⟨[['\r', '\n']], rfl, rfl⟩
      | cons d before =>
        obtain rfl : d = '\n' := by simpa using hhead
        obtain ⟨lines, hflat, hlines⟩ := splitLines_append_break hbreak hwhole before
        refine ⟨['\r', '\n'] :: lines, by simp [hflat], ?_⟩
        show ['\r', '\n'] :: splitLines (before ++ c :: after) = _
        rw [hlines, List.cons_append]
    · obtain ⟨lines, hflat, hlines⟩ := splitLines_append_break hbreak hwhole before
      by_cases hb : isLineBreak b = true
      · have hsplit := splitLines_of_break hb fun hr hhead => hpair ⟨hr, hhead⟩
        refine ⟨[b] :: lines, by simp [hflat], ?_⟩
        rw [List.cons_append, hsplit, hlines, List.cons_append]
      · -- the character goes to the first of the lines, and there is one, since `c` is in it
        cases lines with
        | nil => simp at hflat
        | cons first rest =>
          rw [List.cons_append] at hlines
          have hsplit := splitLines_of_not_break (eq_false_of_ne_true hb) hlines
          refine ⟨(b :: first) :: rest, ?_, by rw [List.cons_append, hsplit, List.cons_append]⟩
          rw [List.flatten_cons] at hflat ⊢
          rw [List.cons_append, hflat, List.cons_append]

end ColorTheme
