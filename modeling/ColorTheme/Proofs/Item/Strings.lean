import ColorTheme.Proofs.Grammar.Document
import ColorTheme.Proofs.Token.Tiling

/-!
# Strings and the texts that they stand for

Two readers share a string: the lexer looks for the quote that closes it, and the reader of values
takes its escapes apart.  They agree on where an escape begins.

* `Glyph` : a character of a string as it is written, itself or behind a backslash.
* `IsInside.exists_glyphs`, `unescape_glyphs` : a string is made of glyphs, and its value has one
  character for each of them.
* `quotedText` : the string for a text.
* `tokenize_quotedText`, `read_assignment` : it is one token, and the value that is read from it is
  the text.
* `strings_exact` : strings hold all texts, and no string breaks off inside an escape.
-/

set_option autoImplicit false

namespace ColorTheme

/-- A character of a string as it is written: itself, or behind a backslash. -/
inductive Glyph
  | plain (c : Char)
  | escape (c : Char)
deriving Repr, DecidableEq

namespace Glyph

/-- The text of a glyph. -/
def written : Glyph → List Char
  | plain c => [c]
  | escape c => ['\\', c]

/-- The character that a glyph stands for. -/
def meant : Glyph → Char
  | plain c => c
  | escape c => if c = 'n' then '\n' else if c = 't' then '\t' else c

/-- A string can hold the glyph: a quote and a backslash only behind a backslash, and no line end. -/
def Allowed : Glyph → Prop
  | plain c => c ≠ '"' ∧ c ≠ '\\' ∧ c ≠ '\n'
  | escape c => c ≠ '\n'

/-- The glyph for a character: a backslash and a quote are written behind a backslash, a line end as
`\n`, and all else as it is. -/
def ofChar (c : Char) : Glyph :=
  if c = '\\' ∨ c = '"' then escape c else if c = '\n' then escape 'n' else plain c

theorem allowed_ofChar (c : Char) : (ofChar c).Allowed := by
  unfold ofChar
  split
  · rename_i hescape
    rcases hescape with rfl | rfl
    · exact (by decide : '\\' ≠ '\n')
    · exact (by decide : '"' ≠ '\n')
  · rename_i hescape
    rw [not_or] at hescape
    split
    · exact (by decide : 'n' ≠ '\n')
    · rename_i hline
      exact ⟨hescape.2, hescape.1, hline⟩

theorem meant_ofChar (c : Char) : (ofChar c).meant = c := by
  unfold ofChar
  split
  · rename_i hescape
    rcases hescape with rfl | rfl <;> rfl
  · split
    · rename_i hline
      exact hline.symm
    · rfl

end Glyph

/-! ## Glyphs -/

theorem isInside_glyphs {glyphs : List Glyph} (h : ∀ g ∈ glyphs, g.Allowed) :
    IsInside (glyphs.flatMap Glyph.written) := by
  induction glyphs with
  | nil => exact .nil
  | cons g glyphs ih =>
    obtain ⟨hg, hglyphs⟩ := List.forall_mem_cons.1 h
    cases g with
    | plain c => exact .plain hg.1 hg.2.1 hg.2.2 (ih hglyphs)
    | escape c => exact .escaped hg (ih hglyphs)

/-- What stands between the quotes of a string is made of glyphs. -/
theorem IsInside.exists_glyphs {inside : List Char} (h : IsInside inside) :
    ∃ glyphs : List Glyph, (∀ g ∈ glyphs, g.Allowed) ∧ inside = glyphs.flatMap Glyph.written := by
  induction h with
  | nil => exact ⟨[], by simp, rfl⟩
  | @plain c cs quote escape line others ih =>
    obtain ⟨glyphs, hglyphs, rfl⟩ := ih
    exact ⟨.plain c :: glyphs, List.forall_mem_cons.2 ⟨⟨quote, escape, line⟩, hglyphs⟩, rfl⟩
  | @escaped c cs line others ih =>
    obtain ⟨glyphs, hglyphs, rfl⟩ := ih
    exact ⟨.escape c :: glyphs, List.forall_mem_cons.2 ⟨line, hglyphs⟩, rfl⟩

theorem unescape_escape (c : Char) (cs : List Char) :
    unescape ('\\' :: c :: cs) = (Glyph.escape c).meant :: unescape cs := by
  by_cases hline : c = 'n'
  · subst hline
    rfl
  · by_cases htab : c = 't'
    · subst htab
      rfl
    · rw [unescape.eq_3 c cs hline htab, Glyph.meant, if_neg hline, if_neg htab]

/-- **Escapes are taken apart where they were put together**, one glyph after the other. -/
theorem unescape_glyphs {glyphs : List Glyph} (h : ∀ g ∈ glyphs, g.Allowed) :
    unescape (glyphs.flatMap Glyph.written) = glyphs.map Glyph.meant := by
  induction glyphs with
  | nil => rfl
  | cons g glyphs ih =>
    obtain ⟨hg, hglyphs⟩ := List.forall_mem_cons.1 h
    rw [List.flatMap_cons, List.map_cons, ← ih hglyphs]
    cases g with
    | plain c => exact unescape_cons hg.2.1 _
    | escape c => exact unescape_escape c _

/-- The number of backslashes at the end of a text. -/
def closingBackslashes (cs : List Char) : Nat := runLength (· == '\\') cs.reverse

/-- The backslashes at the end of the inside of a string are there in pairs. -/
theorem closingBackslashes_glyphs {glyphs : List Glyph} (h : ∀ g ∈ glyphs, g.Allowed) :
    closingBackslashes (glyphs.flatMap Glyph.written) % 2 = 0 := by
  induction glyphs using List.reverseRecOn with
  | nil => rfl
  | append_singleton glyphs g ih =>
    rw [List.forall_mem_append] at h
    have hbefore := ih h.1
    unfold closingBackslashes runLength at hbefore ⊢
    rw [List.flatMap_append, List.reverse_append]
    cases g with
    | plain c =>
      have hc : c ≠ '\\' := (h.2 (.plain c) List.mem_cons_self).2.1
      simp [Glyph.written, hc]
    | escape c =>
      by_cases hc : c = '\\'
      · subst hc
        have hpair (cs : List Char) : ('\\' :: '\\' :: cs).takeWhile (· == '\\') =
            '\\' :: '\\' :: cs.takeWhile (· == '\\') := by simp
        change (List.takeWhile _ ('\\' :: '\\' :: List.reverse _)).length % 2 = 0
        rw [hpair, List.length_cons, List.length_cons]
        omega
      · simp [Glyph.written, hc]

/-! ## The string for a text -/

/-- The string for a text. -/
def quotedText (text : String) : String :=
  String.ofList ('"' :: (text.toList.flatMap (fun c => (Glyph.ofChar c).written) ++ ['"']))

example : quotedText "a\"\\\n" = "\"a\\\"\\\\\\n\"" := by decide

/-- What stands between the quotes of the string for a text. -/
theorem exists_inside_quotedText (text : String) : ∃ inside, IsInside inside ∧
    unescape inside = text.toList ∧ quotedText text = String.ofList ('"' :: (inside ++ ['"'])) := by
  have hallowed : ∀ g ∈ text.toList.map Glyph.ofChar, g.Allowed := by
    intro g hg
    obtain ⟨c, -, rfl⟩ := List.mem_map.1 hg
    exact Glyph.allowed_ofChar c
  refine ⟨(text.toList.map Glyph.ofChar).flatMap Glyph.written, isInside_glyphs hallowed, ?_, ?_⟩
  · rw [unescape_glyphs hallowed, List.map_map]
    exact List.map_id'' Glyph.meant_ofChar _
  · rw [quotedText, List.flatMap_map]

theorem pieces_of_measure {c : Char} {cs : List Char} {kind : Option TokenKind} {n : Nat}
    (h : Piece.measure c cs = (kind, n)) :
    pieces (c :: cs) = ⟨kind, c :: cs.take n⟩ :: pieces (cs.drop n) := by
  rw [pieces, h]

theorem pieces_quoted {inside : List Char} (h : IsInside inside) :
    pieces ('"' :: (inside ++ ['"'])) = [⟨some .quoted, '"' :: (inside ++ ['"'])⟩] := by
  have hmeasure : Piece.measure '"' (inside ++ ['"']) = (some .quoted, inside.length + 1) := by
    rw [Piece.measure, h.quotedLength_eq]
    rfl
  have hall : (inside ++ ['"']).length ≤ inside.length + 1 := by simp
  rw [pieces_of_measure hmeasure, List.take_of_length_le hall, List.drop_of_length_le hall, pieces]

theorem tokenize_quotedText (text : String) : tokenize (quotedText text) =
    [⟨.quoted, quotedText text, ⟨0, byteLength (quotedText text).toList⟩⟩,
      ⟨.endOfFile, "", Span.point (byteLength (quotedText text).toList)⟩] := by
  obtain ⟨inside, hinside, -, htext⟩ := exists_inside_quotedText text
  rw [htext, tokenize, String.toList_ofList, pieces_quoted hinside, locate]
  simp [locate]

/-! ## An attribute whose value is a string -/

theorem pieces_assignment (cs : List Char) : pieces ('x' :: ' ' :: '=' :: ' ' :: '"' :: cs) =
    ⟨some .ident, ['x']⟩ :: ⟨none, [' ']⟩ :: ⟨some .equals, ['=']⟩ :: ⟨none, [' ']⟩ ::
      pieces ('"' :: cs) := by
  have hname : Piece.measure 'x' (' ' :: '=' :: ' ' :: '"' :: cs) = (some .ident, 0) := rfl
  have hgap : Piece.measure ' ' ('=' :: ' ' :: '"' :: cs) = (none, 0) := rfl
  have hsign : Piece.measure '=' (' ' :: '"' :: cs) = (some .equals, 0) := rfl
  have hgap' : Piece.measure ' ' ('"' :: cs) = (none, 0) := rfl
  rw [pieces_of_measure hname, List.take_zero, List.drop_zero, pieces_of_measure hgap,
    List.take_zero, List.drop_zero, pieces_of_measure hsign, List.take_zero, List.drop_zero,
    pieces_of_measure hgap', List.take_zero, List.drop_zero]

theorem tokenize_assignment (text : String) : tokenize ("x = " ++ quotedText text) =
    [⟨.ident, "x", ⟨0, 1⟩⟩, ⟨.equals, "=", ⟨2, 3⟩⟩,
      ⟨.quoted, quotedText text, ⟨4, 4 + byteLength (quotedText text).toList⟩⟩,
      ⟨.endOfFile, "", Span.point (4 + byteLength (quotedText text).toList)⟩] := by
  obtain ⟨inside, hinside, -, htext⟩ := exists_inside_quotedText text
  have hsource : ("x = " ++ quotedText text).toList =
      'x' :: ' ' :: '=' :: ' ' :: '"' :: (inside ++ ['"']) := by simp [htext]
  have hlength : byteLength ("x = " ++ quotedText text).toList =
      4 + byteLength (quotedText text).toList := by
    rw [String.toList_append, byteLength_append]
    rfl
  rw [tokenize, hlength, hsource, pieces_assignment, pieces_quoted hinside, htext,
    String.toList_ofList]
  rfl

theorem quotedValue_quotedText (text : String) : quotedValue (quotedText text) = text := by
  obtain ⟨inside, -, hvalue, htext⟩ := exists_inside_quotedText text
  rw [quotedValue, htext, String.toList_ofList, List.tail_cons, List.dropLast_concat, hvalue,
    String.ofList_toList]

/-- The attribute `x` with the string for a text. -/
def assignedText (text : String) : Attribute :=
  let stop := 4 + byteLength (quotedText text).toList
  ⟨⟨"x", ⟨0, 1⟩⟩, .quoted text ⟨4, stop⟩, ⟨0, stop⟩⟩

theorem read_assignment (text : String) :
    ∃ used, Body.read ("x = " ++ quotedText text) = ⟨[.assignment (assignedText text)], [], used⟩ := by
  have hspan (n : Nat) : (Span.mk 0 1).merge ⟨4, 4 + n⟩ = ⟨0, 4 + n⟩ := by
    simp only [Span.merge, Span.mk.injEq]
    omega
  have hbody : Grammar.IsBody (tokenize ("x = " ++ quotedText text))
      [.assignment (assignedText text)]
      [⟨.endOfFile, "", Span.point (4 + byteLength (quotedText text).toList)⟩] := by
    rw [tokenize_assignment, assignedText, ← hspan]
    have hvalue := Grammar.IsExpr.quoted
      (t := ⟨.quoted, quotedText text, ⟨4, 4 + byteLength (quotedText text).toList⟩⟩)
      [⟨.endOfFile, "", Span.point (4 + byteLength (quotedText text).toList)⟩] rfl
    rw [quotedValue_quotedText] at hvalue
    exact .assignment rfl rfl hvalue (.inr (.inr rfl)) (.none _)
  obtain ⟨used, hread, -⟩ := Grammar.readBody_of_isBody hbody false
    (lastSpan (tokenize ("x = " ++ quotedText text))) (.inl rfl)
  exact ⟨used, hread⟩

/-! ## All strings -/

/-- The text is held by its string. -/
structure Held (text : String) : Prop where
  /-- The string is one token. -/
  token : tokenize (quotedText text) =
    [⟨.quoted, quotedText text, ⟨0, byteLength (quotedText text).toList⟩⟩,
      ⟨.endOfFile, "", Span.point (byteLength (quotedText text).toList)⟩]
  /-- Behind `x = ` it is read as an attribute with the text as value. -/
  items : (Body.read ("x = " ++ quotedText text)).items = [.assignment (assignedText text)]
  /-- Nothing is wrong with it. -/
  flaws : (Body.read ("x = " ++ quotedText text)).flaws = []

/-- The token is a string in which no escape breaks off: `inside` stands between its quotes. -/
structure Token.Whole (t : Token) (inside : List Char) : Prop where
  text : t.text.toList = '"' :: (inside ++ ['"'])
  /-- The last backslashes are there in pairs, so none is left for the closing quote. -/
  pairs : closingBackslashes inside % 2 = 0
  /-- The value has one character for each that is written plainly and for each pair of a backslash
  and a character, and nothing is left over. -/
  value : ∃ glyphs : List Glyph, (∀ g ∈ glyphs, g.Allowed) ∧
    inside = glyphs.flatMap Glyph.written ∧ quotedValue t.text = String.ofList (glyphs.map Glyph.meant)

theorem held (text : String) : Held text := by
  obtain ⟨used, hread⟩ := read_assignment text
  exact ⟨tokenize_quotedText text, by rw [hread], by rw [hread]⟩

theorem exists_whole {t : Token} (h : Lexeme .quoted t.text.toList) : ∃ inside, t.Whole inside := by
  generalize htext : t.text.toList = text at h
  cases h with
  | @quoted inside hinside =>
    obtain ⟨glyphs, hglyphs, rfl⟩ := hinside.exists_glyphs
    refine ⟨glyphs.flatMap Glyph.written, htext, closingBackslashes_glyphs hglyphs, glyphs, hglyphs,
      rfl, ?_⟩
    rw [quotedValue, htext, List.tail_cons, List.dropLast_concat, unescape_glyphs hglyphs]

/-- **Strings hold every text and are read to their end.** -/
theorem strings_exact : (∀ text, Held text) ∧
    ∀ source, ∀ t ∈ tokenize source, t.kind = .quoted → ∃ inside, t.Whole inside := by
  refine ⟨held, fun source t ht hkind => ?_⟩
  have hlexeme := lexeme_of_mem_tokenize ht (by rw [hkind]; decide) (by rw [hkind]; decide)
  rw [hkind] at hlexeme
  exact exists_whole hlexeme

/-- A string whose last backslash is escaped, and a comment with a quote behind it. -/
def trailingEscape : String := "x = \"\\t\\\\\" // \""

theorem strings_exact_trailingEscape :
    ⟨.quoted, "\"\\t\\\\\"", ⟨4, 10⟩⟩ ∈ tokenize trailingEscape ∧
      ∃ inside, (Token.mk .quoted "\"\\t\\\\\"" ⟨4, 10⟩).Whole inside := by
  have htoken : ⟨.quoted, "\"\\t\\\\\"", ⟨4, 10⟩⟩ ∈ tokenize trailingEscape := by decide +kernel
  exact ⟨htoken, strings_exact.2 trailingEscape _ htoken rfl⟩

end ColorTheme
