import ColorTheme.Proofs.Token.Pattern
import ColorTheme.Text.Alphanumeric
import ColorTheme.Text.Blank

/-!
# Blanks at the ends of texts

* `CharClass.contains_eq_false` : classes whose ranges are apart have no characters in common.
* `isBlank_of_isAlphanumeric` : so no letter and no number is blank.
* `trim_padded` : the blanks around a text are cut off, and `mem_trim` : nothing else is.
-/

set_option autoImplicit false

namespace ColorTheme

variable {c : Char}

/-! ## Characters -/

/-- Where no ranges of two classes overlap, no character is in both. -/
theorem CharClass.contains_eq_false {a b : CharClass}
    (h : (a.all fun r => b.all fun s => decide (r.2 < s.1 ∨ s.2 < r.1)) = true)
    (hc : a.contains c = true) : b.contains c = false := by
  obtain ⟨r, hr, hrange⟩ := List.any_eq_true.1 hc
  apply List.any_eq_false.2
  intro s hs
  have happart := List.all_eq_true.1 (List.all_eq_true.1 h r hr) s hs
  simp only [decide_eq_true_eq] at happart hrange ⊢
  omega

/-- No sign, letter or digit of ASCII is blank. -/
theorem isBlank_of_visible (h : 33 ≤ c.toNat ∧ c.toNat ≤ 126) : isBlank c = false := by
  simp only [isBlank, CharClass.contains, blankClass, List.any_cons, List.any_nil, Bool.or_false,
    Bool.or_eq_false_iff, decide_eq_false_iff_not]
  omega

/-- No letter and no number of any script is blank. -/
theorem isBlank_of_isAlphanumeric (h : isAlphanumeric c = true) : isBlank c = false := by
  unfold isAlphanumeric at h
  split at h
  · apply isBlank_of_visible
    rcases Bool.or_eq_true_iff.1 h with h | h
    · have hletter := toNat_of_isAlpha h
      omega
    · have hdigit := toNat_of_isDigit h
      omega
  · exact CharClass.contains_eq_false (by decide +kernel) h

theorem isBlank_of_isGap (h : isGap c = true) : isBlank c = true := by
  rcases isGap_iff.1 h with rfl | rfl | rfl | rfl <;> decide

/-! ## Texts -/

section

variable {front behind text cs : List Char} {p : Char → Bool}

theorem dropWhile_run {run rest : List Char} (hrun : ∀ c ∈ run, p c = true)
    (hrest : ∀ c, rest.head? = some c → p c = false) : (run ++ rest).dropWhile p = rest := by
  rw [List.dropWhile_append_of_pos hrun]
  cases rest with
  | nil => rfl
  | cons c rest => rw [List.dropWhile_cons_of_neg (by simp [hrest c rfl])]

/-- The blanks around a text are cut off. -/
theorem trim_padded (hfront : ∀ c ∈ front, isBlank c = true)
    (hbehind : ∀ c ∈ behind, isBlank c = true) (hne : text ≠ [])
    (htext : ∀ c ∈ text, isBlank c = false) : trim (front ++ (text ++ behind)) = text := by
  have hstart : trimStart isBlank (front ++ (text ++ behind)) = text ++ behind := by
    apply dropWhile_run hfront
    intro c hc
    rw [List.head?_append_of_ne_nil _ hne] at hc
    exact htext c (List.mem_of_head? hc)
  have hstop : ∀ c, text.reverse.head? = some c → isBlank c = false := by
    intro c hc
    exact htext c (List.mem_reverse.1 (List.mem_of_head? hc))
  unfold trim trimEnd
  rw [hstart, List.reverse_append, dropWhile_run (by simpa using hbehind) hstop,
    List.reverse_reverse]

theorem mem_dropWhile (h : c ∈ cs) (hc : p c = false) : c ∈ cs.dropWhile p := by
  rw [← List.takeWhile_append_dropWhile (p := p) (l := cs), List.mem_append] at h
  apply h.resolve_left
  intro htaken
  rw [List.mem_takeWhile_imp htaken] at hc
  cases hc

/-- Nothing but blanks is cut off. -/
theorem mem_trim (h : c ∈ cs) (hc : isBlank c = false) : c ∈ trim cs := by
  unfold trim trimEnd trimStart
  apply List.mem_reverse.2
  apply mem_dropWhile _ hc
  apply List.mem_reverse.2
  exact mem_dropWhile h hc

end

end ColorTheme
