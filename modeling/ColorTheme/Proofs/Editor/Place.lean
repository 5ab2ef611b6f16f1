import ColorTheme.Editor.Document
import ColorTheme.Proofs.Text.Slice

/-!
# Places and edits in a document

* `Document.charIndex?_positionOfChar` : the position of a character leads back to it, also
  between the two characters of one line break.
* `Document.charIndex?_position` : the position of a byte offset leads to the character there.
* `Document.edit_exact` : so positions, ranges and edits speak of exactly the bytes that they are
  made from, and an edit can be undone.
-/

set_option autoImplicit false

namespace ColorTheme

/-! ## Bytes and characters -/

theorem charOfByte_zero (cs : List Char) : charOfByte cs 0 = 0 := by
  cases cs with
  | nil => rfl
  | cons c cs =>
    have hc := c.utf8Size_pos
    rw [charOfByte, if_neg (by omega)]

/-- As many characters stand before the end of a part of a text as the part has. -/
theorem charOfByte_byteLength_append (before after : List Char) :
    charOfByte (before ++ after) (byteLength before) = before.length := by
  induction before with
  | nil => exact charOfByte_zero after
  | cons c before ih =>
    rw [List.cons_append, charOfByte, byteLength_cons, if_pos (Nat.le_add_right _ _),
      Nat.add_sub_cancel_left, ih, List.length_cons]

/-! ## Characters and lines -/

/-- The last of the lines of a text has no break in it. -/
theorem not_isLineBreak_of_getLast?_splitLines {cs line : List Char}
    (h : (splitLines cs).getLast? = some line) : ∀ c ∈ line, isLineBreak c = false := by
  fun_induction splitLines cs generalizing line with
  | case1 =>
    obtain rfl : line = [] := by simpa using h.symm
    simp
  | case2 cs ih =>
    obtain ⟨first, rest, hlines⟩ := List.exists_cons_of_ne_nil (splitLines_ne_nil cs)
    rw [hlines, List.getLast?_cons_cons, ← hlines] at h
    exact ih h
  | case3 c cs _ hbreak ih =>
    obtain ⟨first, rest, hlines⟩ := List.exists_cons_of_ne_nil (splitLines_ne_nil cs)
    rw [hlines, List.getLast?_cons_cons, ← hlines] at h
    exact ih h
  | case4 c cs _ _ hnil ih => exact absurd hnil (splitLines_ne_nil cs)
  | case5 c cs _ hbreak first rest hlines ih =>
    rw [hlines] at ih
    cases rest with
    | nil =>
      obtain rfl : c :: first = line := by simpa using h
      have hfirst := ih (List.getLast?_singleton)
      intro x hx
      rcases List.mem_cons.1 hx with rfl | hx
      · exact eq_false_of_ne_true hbreak
      · exact hfirst x hx
    | cons second rest =>
      rw [List.getLast?_cons_cons] at h ih
      exact ih h

theorem lastPlace_of_ne {line : List Char} (h : line.getLast? ≠ some '\n') :
    lastPlace line = line.length := if_neg h

theorem le_lastPlace_of_lt {line : List Char} {n : Nat} (h : n < line.length) :
    n ≤ lastPlace line := by
  unfold lastPlace
  split <;> omega

theorem lastPlace_le (line : List Char) : lastPlace line ≤ line.length := by
  unfold lastPlace
  split <;> omega

/-- A character in lines, the last of which has no line feed at its end, is on one of them, and
not behind the last place of that line. -/
theorem positionInLines_spec {lines : List (List Char)} {index : Nat} (hne : lines ≠ [])
    (hlast : ∀ line, lines.getLast? = some line → line.getLast? ≠ some '\n')
    (hindex : index ≤ lines.flatten.length) (number : Nat) :
    ∃ before line behind, lines = before ++ line :: behind ∧
      before.flatten.length ≤ index ∧ index - before.flatten.length ≤ lastPlace line ∧
      positionInLines number index lines =
        ⟨number + before.length, index - before.flatten.length⟩ := by
  induction lines generalizing index number with
  | nil => exact absurd rfl hne
  | cons first rest ih =>
    cases rest with
    | nil =>
      have hfirst := lastPlace_of_ne (hlast first rfl)
      rw [List.flatten_singleton] at hindex
      exact ⟨[], first, [], rfl, Nat.zero_le _, by simpa [hfirst] using hindex, rfl⟩
    | cons second rest =>
      rw [positionInLines]
      split
      · rename_i hlt
        exact ⟨[], first, second :: rest, rfl, Nat.zero_le _, le_lastPlace_of_lt hlt, rfl⟩
      · rename_i hge
        rw [List.flatten_cons, List.length_append] at hindex
        rw [List.getLast?_cons_cons] at hlast
        have hrest : index - first.length ≤ (second :: rest).flatten.length := by omega
        obtain ⟨before, line, behind, hlines, hle, hplace, hposition⟩ :=
          ih (List.cons_ne_nil second rest) hlast hrest (number + 1)
        refine ⟨first :: before, line, behind, by rw [hlines, List.cons_append], ?_, ?_, ?_⟩
        · rw [List.flatten_cons, List.length_append]
          omega
        · rw [List.flatten_cons, List.length_append, ← Nat.sub_sub]
          exact hplace
        · rw [hposition, List.flatten_cons, List.length_append, List.length_cons, ← Nat.sub_sub]
          congr 1
          omega

namespace Document

variable {d : Document} {before inside after : List Char} {i : Nat}

/-- **The position of a character leads back to it.** -/
theorem charIndex?_positionOfChar (h : i ≤ d.chars.length) :
    d.charIndex? (d.positionOfChar i) = some i := by
  have hlast : ∀ line, d.lines.getLast? = some line → line.getLast? ≠ some '\n' := by
    intro line hline hbreak
    have := not_isLineBreak_of_getLast?_splitLines hline '\n' (List.mem_of_getLast? hbreak)
    exact absurd this (by decide)
  have hindex : i ≤ d.lines.flatten.length := by
    unfold lines
    rwa [flatten_splitLines]
  obtain ⟨before, line, behind, hlines, hle, hplace, hposition⟩ :=
    positionInLines_spec (splitLines_ne_nil d.chars) hlast hindex 0
  have hfound : d.lines[before.length]? = some line := by
    rw [show d.lines = before ++ line :: behind from hlines]
    simp
  have hbefore : d.lines.take before.length = before := by
    rw [show d.lines = before ++ line :: behind from hlines]
    simp
  have hplaced : d.positionOfChar i = ⟨before.length, i - before.flatten.length⟩ := by
    rw [← Nat.zero_add before.length]
    exact hposition
  unfold charIndex?
  rw [hplaced]
  dsimp only
  rw [hfound, hbefore, Option.map_some, Nat.min_eq_left hplace, Nat.add_sub_cancel' hle]

/-- **The position of a byte offset leads to the character there.** -/
theorem charIndex?_position (h : d.chars = before ++ after) :
    d.charIndex? (d.position (byteLength before)) = some before.length := by
  unfold position
  rw [h, charOfByte_byteLength_append]
  refine charIndex?_positionOfChar ?_
  rw [h, List.length_append]
  exact Nat.le_add_right _ _

theorem offset?_position (h : d.chars = before ++ after) :
    d.offset? (d.position (byteLength before)) = some (byteLength before) := by
  unfold offset?
  rw [charIndex?_position h, Option.map_some, h, List.take_left]

/-- A position is no further than the end of the text. -/
theorem le_length_of_charIndex? {p : Position} (h : d.charIndex? p = some i) :
    i ≤ d.chars.length := by
  obtain ⟨line, hline, rfl⟩ := Option.map_eq_some_iff.1 h
  have hcount : (d.lines.take p.line).flatten.length + (d.lines.drop p.line).flatten.length =
      d.chars.length := by
    rw [← List.length_append, ← List.flatten_append, List.take_append_drop, lines,
      flatten_splitLines]
  obtain ⟨hlt, rfl⟩ := List.getElem?_eq_some_iff.1 hline
  rw [List.drop_eq_getElem_cons hlt, List.flatten_cons, List.length_append] at hcount
  have hplace := lastPlace_le d.lines[p.line]
  omega

/-- The edit that replaces the text under a span. -/
def replacement (d : Document) (s : Span) (t : String) : Edit := ⟨some (d.range s), t⟩

theorem charIndex?_start (h : d.chars = before ++ inside ++ after) :
    d.charIndex? (d.position (byteLength before)) = some before.length :=
  charIndex?_position (h.trans (List.append_assoc _ _ _))

theorem textIn?_range (h : d.chars = before ++ inside ++ after) :
    d.textIn? (d.range ⟨byteLength before, byteLength (before ++ inside)⟩) = some inside := by
  have hle : before.length ≤ (before ++ inside).length := by
    rw [List.length_append]
    exact Nat.le_add_right _ _
  unfold textIn? range
  dsimp only
  rw [charIndex?_start h, charIndex?_position h, Option.bind_some, Option.bind_some, if_pos hle,
    h, List.take_left, List.drop_left]

/-- **An edit replaces the part of the text that its range was made from.** -/
theorem edited_replacement (h : d.chars = before ++ inside ++ after) (t : String) :
    d.edited (d.replacement ⟨byteLength before, byteLength (before ++ inside)⟩ t) =
      String.ofList (before ++ t.toList ++ after) := by
  have hle : before.length ≤ (before ++ inside).length := by
    rw [List.length_append]
    exact Nat.le_add_right _ _
  have hfront : d.chars.take before.length = before := by
    rw [h, List.append_assoc, List.take_left]
  have hback : d.chars.drop (before ++ inside).length = after := by
    rw [h, List.drop_left]
  unfold edited replacement range
  dsimp only
  rw [charIndex?_start h, charIndex?_position h]
  dsimp only
  rw [if_pos hle, hfront, hback]

/-- **Positions and edits are exact.**  Between any two places of a document, whatever its line
breaks: the position of the first leads back to it, the range from one to the other is that of the
text between them, an edit there replaces this text and nothing else, and the edit that puts the
text back, made in the new document, restores the old one. -/
theorem edit_exact (d : Document) {a b : Nat} (ha : IsBoundary d.chars a)
    (hb : IsBoundary d.chars b) (hab : a ≤ b) :
    d.offset? (d.position a) = some a ∧
      ∃ before inside after, d.chars = before ++ inside ++ after ∧
        byteLength before = a ∧ byteLength (before ++ inside) = b ∧
        d.textIn? (d.range ⟨a, b⟩) = some inside ∧
        ∀ (version later : Int) (t : String),
          let edited := d.apply version (d.replacement ⟨a, b⟩ t)
          edited.text = String.ofList (before ++ t.toList ++ after) ∧
            (edited.apply later (edited.replacement ⟨a, a + byteLength t.toList⟩
              (String.ofList inside))).text = d.text := by
  obtain ⟨before, inside, after, hcut, rfl, rfl⟩ := exists_cut ha hb hab
  refine ⟨offset?_position (hcut.trans (List.append_assoc _ _ _)), before, inside, after, hcut, rfl,
    rfl, textIn?_range hcut, ?_⟩
  intro version later t edited
  have htext := edited_replacement hcut t
  refine ⟨htext, ?_⟩
  have hchars : edited.chars = before ++ t.toList ++ after := by
    show (d.edited _).toList = _
    rw [htext, String.toList_ofList]
  have hback := edited_replacement hchars (String.ofList inside)
  rw [byteLength_append before t.toList, String.toList_ofList, ← hcut, chars,
    String.ofList_toList] at hback
  exact hback

/-- A text with a line break of two characters. -/
def twoLines : Document := ⟨1, "é\r\nb"⟩

theorem edit_exact_twoLines :
    IsBoundary twoLines.chars 3 ∧ IsBoundary twoLines.chars 5 ∧
      twoLines.offset? (twoLines.position 3) = some 3 ∧
      ∃ before inside after, twoLines.chars = before ++ inside ++ after ∧
        byteLength before = 3 ∧ byteLength (before ++ inside) = 5 ∧
        twoLines.textIn? (twoLines.range ⟨3, 5⟩) = some inside ∧
        ∀ (version later : Int) (t : String),
          let edited := twoLines.apply version (twoLines.replacement ⟨3, 5⟩ t)
          edited.text = String.ofList (before ++ t.toList ++ after) ∧
            (edited.apply later (edited.replacement ⟨3, 3 + byteLength t.toList⟩
              (String.ofList inside))).text = twoLines.text :=
  have hstart : IsBoundary twoLines.chars 3 := by decide +kernel
  have hstop : IsBoundary twoLines.chars 5 := by decide +kernel
  ⟨hstart, hstop, edit_exact twoLines hstart hstop (by decide)⟩

end Document

end ColorTheme
