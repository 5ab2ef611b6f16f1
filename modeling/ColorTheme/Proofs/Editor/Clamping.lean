import ColorTheme.Proofs.Editor.Place
import ColorTheme.Proofs.Text.Ending
import Mathlib.Data.List.TakeWhile

/-!
# Positions beyond the end of a line

A position too far to the right stands for the last place of its line that an editor can be in.

* `positionInLines_append` : lines in front of a place put it that many lines further down.
* `Document.lands` : where a position leads, for every way in which its line may end.  On a line
  that ends in a line feed, or with the text, it stays in front of the break; behind any other
  break it does not.
* `Document.not_always_clamped` : such a break.
-/

set_option autoImplicit false

namespace ColorTheme

/-! ## Places on lines -/

theorem positionInLines_append {lines : List (List Char)} (hne : lines ≠ [])
    (before : List (List Char)) (number index : Nat) :
    positionInLines number (before.flatten.length + index) (before ++ lines) =
      positionInLines (number + before.length) index lines := by
  induction before generalizing number with
  | nil => simp
  | cons first before ih =>
    obtain ⟨second, rest, hrest⟩ := List.exists_cons_of_ne_nil
      (List.append_ne_nil_of_right_ne_nil before hne)
    have ih := ih (number + 1)
    rw [hrest] at ih
    rw [List.cons_append, hrest, positionInLines, List.flatten_cons, List.length_append,
      if_neg (by omega), List.length_cons]
    rw [show first.length + before.flatten.length + index - first.length =
      before.flatten.length + index by omega, ih]
    congr 1
    omega

theorem positionInLines_of_lt {line : List Char} {index : Nat} (h : index < line.length)
    (number : Nat) (rest : List (List Char)) :
    positionInLines number index (line :: rest) = ⟨number, index⟩ := by
  cases rest with
  | nil => rfl
  | cons second rest => rw [positionInLines, if_pos h]

/-- The first place is at the start of the first line. -/
theorem IsLines.positionInLines_zero {lines : List (List Char)} (h : IsLines lines)
    (number : Nat) : positionInLines number 0 lines = ⟨number, 0⟩ := by
  cases h with
  | last unbroken => rfl
  | @more content ending lines unbroken break_mem whole rest =>
    refine positionInLines_of_lt (List.length_pos_iff.2 ?_) number lines
    simp [ne_nil_of_mem_lineBreaks break_mem]

/-- The place behind a line is the start of the next. -/
theorem IsLines.positionInLines_length {first second : List Char} {rest : List (List Char)}
    (h : IsLines (first :: second :: rest)) (number : Nat) :
    positionInLines number first.length (first :: second :: rest) = ⟨number + 1, 0⟩ := by
  rw [positionInLines, if_neg (Nat.lt_irrefl _), Nat.sub_self]
  exact h.tail.positionInLines_zero (number + 1)

/-! ## The last place of a line -/

theorem lastPlace_unbroken {content : List Char} (h : Unbroken content) :
    lastPlace content = content.length := by
  refine lastPlace_of_ne fun hlast => ?_
  have hfeed := h '\n' (List.mem_of_getLast? hlast)
  revert hfeed
  decide

theorem lastPlace_append_lineFeed (cs : List Char) : lastPlace (cs ++ ['\n']) = cs.length := by
  simp [lastPlace]

theorem lastPlace_append_of_ne {c : Char} (hc : c ≠ '\n') (cs : List Char) :
    lastPlace (cs ++ [c]) = cs.length + 1 := by
  simp [lastPlace, hc]

/-! ## Positions on a line -/

namespace Document

variable {d : Document} {p : Position} {line : List Char} {rest : List (List Char)}

/-- The position of a byte offset is that of the character there. -/
theorem position_byteLength {before after : List Char} (h : d.chars = before ++ after) :
    d.position (byteLength before) = d.positionOfChar before.length := by
  unfold position
  rw [h, charOfByte_byteLength_append]

/-- A position on a line is one of the places of this line. -/
theorem exists_offset (hdrop : d.lines.drop p.line = line :: rest) :
    ∃ offset, d.offset? p = some offset ∧
      d.position offset =
        positionInLines p.line (min p.character (lastPlace line)) (line :: rest) := by
  have hlines : d.lines.take p.line ++ line :: rest = d.lines := by
    rw [← hdrop, List.take_append_drop]
  have hcount : p.line < d.lines.length := by
    by_contra hge
    rw [List.drop_eq_nil_of_le (by omega)] at hdrop
    cases hdrop
  have htake : (d.lines.take p.line).length = p.line := by
    rw [List.length_take]
    omega
  have hline : d.lines[p.line]? = some line := by
    rw [← hlines, List.getElem?_append_right (by omega), htake]
    simp
  have hindex : d.charIndex? p = some
      ((d.lines.take p.line).flatten.length + min p.character (lastPlace line)) := by
    rw [charIndex?, hline]
    rfl
  have hle := le_length_of_charIndex? hindex
  have hposition := position_byteLength (d := d) (List.take_append_drop
    ((d.lines.take p.line).flatten.length + min p.character (lastPlace line)) d.chars).symm
  refine ⟨_, by rw [offset?, hindex, Option.map_some], hposition.trans ?_⟩
  have hplaced := positionInLines_append (List.cons_ne_nil line rest) (d.lines.take p.line) 0
    (min p.character (lastPlace line))
  rw [hlines, htake, Nat.zero_add] at hplaced
  rw [List.length_take, Nat.min_eq_left hle]
  exact hplaced

/-- A line is shown without the carriage returns and line feeds at its end. -/
theorem line?_append {content ending : List Char}
    (hline : d.lines[p.line]? = some (content ++ ending)) (hcontent : Unbroken content)
    (hending : ∀ c ∈ ending, c = '\n' ∨ c = '\r') : d.line? p.line = some content := by
  have hend : (ending.reverse.dropWhile fun c => c == '\n' || c == '\r') = [] := by
    rw [List.dropWhile_eq_nil_iff]
    simpa using hending
  have hstop : (content.reverse.dropWhile fun c => c == '\n' || c == '\r') = content.reverse := by
    cases hlast : content.reverse with
    | nil => rfl
    | cons c cs =>
      have hc : isLineBreak c = false := hcontent c (List.mem_reverse.1 (by simp [hlast]))
      simp only [isLineBreak, Bool.or_eq_false_iff] at hc
      simp [hc]
  rw [line?, hline, Option.map_some, List.reverse_append, List.dropWhile_append]
  simp [hend, hstop]

/-- Behind any other break the line is shown with it. -/
theorem line?_of_not_feed {content : List Char} {c : Char}
    (hline : d.lines[p.line]? = some (content ++ [c])) (hfeed : c ≠ '\n') (hreturn : c ≠ '\r') :
    d.line? p.line = some (content ++ [c]) := by
  rw [line?, hline]
  simp [hfeed, hreturn]

/-! ## Where a position leads -/

/-- The line of the position is the content with the ending behind it, and the position leads to
the byte `offset`. -/
structure Lands (d : Document) (p : Position) (content ending : List Char) (offset : Nat) :
    Prop where
  line : d.lines[p.line]? = some (content ++ ending)
  unbroken : Unbroken content
  /-- Only the last line has no break. -/
  ended : ending ∈ lineBreaks ∨ ending = [] ∧ p.line + 1 = d.lineCount
  found : d.offset? p = some offset
  /-- Between the characters of the content a position leads to itself, and where a line feed or
  nothing ends the line, one too far to the right leads to the end of the content. -/
  stays : p.character ≤ content.length ∨ ending = ['\n'] ∨ ending = [] →
    d.position offset = ⟨p.line, min p.character content.length⟩
  /-- Where both a carriage return and a line feed end the line, one too far to the right leads
  between the two. -/
  splits : content.length < p.character → ending = ['\r', '\n'] →
    d.position offset = ⟨p.line, content.length + 1⟩
  /-- Where any other break ends the line, one too far to the right leads to the next line. -/
  leaves : content.length < p.character → ending ∈ lineBreaks → ending ≠ ['\n'] →
    ending ≠ ['\r', '\n'] → d.position offset = ⟨p.line + 1, 0⟩
  /-- The line is shown without a break of carriage returns and line feeds. -/
  shown : (∀ c ∈ ending, c = '\n' ∨ c = '\r') → d.line? p.line = some content
  /-- Any other break is shown. -/
  showsBreak : (∃ c ∈ ending, c ≠ '\n' ∧ c ≠ '\r') → d.line? p.line = some (content ++ ending)

variable {content ending : List Char} {offset : Nat}

/-- On the last line a position leads to the end of the text at most. -/
theorem lands_last (hline : d.lines[p.line]? = some content) (hcontent : Unbroken content)
    (hcount : p.line + 1 = d.lineCount) (hoffset : d.offset? p = some offset)
    (hposition : d.position offset =
      positionInLines p.line (min p.character (lastPlace content)) [content]) :
    d.Lands p content [] offset := by
  have hline' : d.lines[p.line]? = some (content ++ []) := by rwa [List.append_nil]
  rw [lastPlace_unbroken hcontent, positionInLines] at hposition
  refine ⟨hline', hcontent, .inr ⟨rfl, hcount⟩, hoffset, fun _ => hposition, ?_, ?_, ?_, ?_⟩
  · intro _ hpair
    cases hpair
  · intro _ hbreak
    exact absurd rfl (ne_nil_of_mem_lineBreaks hbreak)
  · intro hfeeds
    exact line?_append hline' hcontent hfeeds
  · rintro ⟨c, hc, -⟩
    cases hc

/-- A position on a line with a break. -/
theorem lands_break {second : List Char} (hline : d.lines[p.line]? = some (content ++ ending))
    (hlines : IsLines ((content ++ ending) :: second :: rest)) (hcontent : Unbroken content)
    (hbreak : ending ∈ lineBreaks) (hoffset : d.offset? p = some offset)
    (hposition : d.position offset = positionInLines p.line
      (min p.character (lastPlace (content ++ ending))) ((content ++ ending) :: second :: rest)) :
    d.Lands p content ending offset := by
  have hinside : ∀ n, n < (content ++ ending).length →
      min p.character (lastPlace (content ++ ending)) = n → d.position offset = ⟨p.line, n⟩ := by
    intro n hn hmin
    rw [hposition, hmin]
    exact positionInLines_of_lt hn _ _
  have hlong : content.length < (content ++ ending).length := by
    have hpos := List.length_pos_iff.2 (ne_nil_of_mem_lineBreaks hbreak)
    rw [List.length_append]
    omega
  refine ⟨hline, hcontent, .inl hbreak, hoffset, ?stays, ?splits, ?leaves,
    line?_append hline hcontent, ?showsBreak⟩
  case stays =>
    intro hplace
    by_cases hle : p.character ≤ content.length
    · have hlast := le_lastPlace_of_lt (Nat.lt_of_le_of_lt hle hlong)
      rw [Nat.min_eq_left hle]
      exact hinside _ (by omega) (Nat.min_eq_left hlast)
    · rcases hplace with hplace | rfl | rfl
      · exact absurd hplace hle
      · refine hinside _ (by omega) ?_
        rw [lastPlace_append_lineFeed]
      · exact absurd rfl (ne_nil_of_mem_lineBreaks hbreak)
  case splits =>
    rintro hlt rfl
    have hlast := lastPlace_append_lineFeed (content ++ ['\r'])
    rw [List.append_assoc, List.length_append] at hlast
    refine hinside _ (by simp) ?_
    rw [show ['\r', '\n'] = ['\r'] ++ ['\n'] from rfl, hlast]
    exact Nat.min_eq_right hlt
  case leaves =>
    intro hlt _ hfeed hpair
    rcases mem_lineBreaks.1 hbreak with rfl | ⟨c, -, rfl⟩
    · exact absurd rfl hpair
    · have hc : c ≠ '\n' := fun hc => hfeed (by rw [hc])
      have hnext := hlines.positionInLines_length p.line
      rw [List.length_append, List.length_singleton] at hnext
      rw [hposition, lastPlace_append_of_ne hc, Nat.min_eq_right hlt]
      exact hnext
  case showsBreak =>
    rintro ⟨c, hc, hfeed, hreturn⟩
    rcases mem_lineBreaks.1 hbreak with rfl | ⟨b, -, rfl⟩
    · simp [hfeed, hreturn] at hc
    · obtain rfl := List.mem_singleton.1 hc
      exact line?_of_not_feed hline hfeed hreturn

/-- **Where a position leads.**  Every position on a line of a document leads somewhere: on its
line and in front of the break, if it is not too far to the right, or if a line feed or nothing ends
the line, and else into the break or behind it. -/
theorem lands (d : Document) (p : Position) (h : p.line < d.lineCount) :
    ∃ content ending offset, d.Lands p content ending offset := by
  have hlines := (isLines_splitLines d.chars).drop h
  have hget : d.lines[p.line]? = (d.lines.drop p.line)[0]? := by simp
  obtain ⟨line, rest, hdrop⟩ := List.exists_cons_of_ne_nil hlines.ne_nil
  change d.lines.drop p.line = line :: rest at hdrop
  obtain ⟨offset, hoffset, hposition⟩ := exists_offset hdrop
  have hlength := congrArg List.length hdrop
  change IsLines (d.lines.drop p.line) at hlines
  rw [hdrop] at hget hlines
  rw [List.length_drop, List.length_cons] at hlength
  cases hlines with
  | last unbroken =>
    refine ⟨line, [], offset, lands_last hget unbroken ?_ hoffset hposition⟩
    unfold lineCount at h ⊢
    simp only [List.length_nil] at hlength
    omega
  | @more content ending lines unbroken break_mem whole rest =>
    obtain ⟨second, rest', rfl⟩ := List.exists_cons_of_ne_nil rest.ne_nil
    exact ⟨content, ending, offset, lands_break hget (.more unbroken break_mem whole rest) unbroken
      break_mem hoffset hposition⟩

/-- Lines that end in a carriage return and a line feed, in a line separator, and with the text. -/
def mixedBreaks : Document := ⟨1, "é =\r\nb =\u2028c"⟩

theorem lands_mixedBreaks :
    1 < mixedBreaks.lineCount ∧
      ∃ content ending offset, mixedBreaks.Lands ⟨1, 9⟩ content ending offset :=
  have hline : 1 < mixedBreaks.lineCount := by decide +kernel
  ⟨hline, lands mixedBreaks ⟨1, 9⟩ hline⟩

/-- A position too far to the right can lead into the break of its line or behind it, and a line
can be shown with its break. -/
theorem not_always_clamped :
    (mixedBreaks.lines[0]? = some ['é', ' ', '=', '\r', '\n'] ∧
        mixedBreaks.offset? ⟨0, 9⟩ = some 5 ∧ mixedBreaks.position 5 ≠ ⟨0, min 9 3⟩) ∧
      (mixedBreaks.lines[1]? = some ['b', ' ', '=', '\u2028'] ∧
        mixedBreaks.offset? ⟨1, 9⟩ = some 12 ∧ mixedBreaks.position 12 ≠ ⟨1, min 9 3⟩) ∧
      mixedBreaks.line? 1 ≠ some ['b', ' ', '='] := by
  decide +kernel

end Document

end ColorTheme
