import ColorTheme.Proofs.Token.Locality
import ColorTheme.Proofs.Token.Tiling

/-!
# Texts joined at a line end

A text that goes on behind a line end can be read in two parts, if that line end is a token and no
part of a comment.

* `pieces_append_of_newline` : nothing that is cut off before the line end reaches over it.
* `tokenize_append_of_closesLine` : so the tokens of the whole text are those of its parts, one
  behind the other.
-/

set_option autoImplicit false

namespace ColorTheme

/-- The token, `n` bytes further on. -/
def Token.behind (n : Nat) (t : Token) : Token :=
  ⟨t.kind, t.text, ⟨n + t.span.start, n + t.span.stop⟩⟩

/-- The last token before the end of the file is a line end, and the source ends with it. -/
def ClosesLine (source : String) : Prop :=
  ∃ t, (tokenize source).dropLast.getLast? = some t ∧ t.kind = .newline ∧
    t.span.stop = byteLength source.toList

variable {a : String} {cs : List Char} {ps : List Piece} {t : Token}

/-- The tokens but for the end of the file. -/
theorem dropLast_tokenize (source : String) :
    (tokenize source).dropLast = locate 0 (pieces source.toList) := List.dropLast_concat

/-- A line end that is a piece of its own is one whatever the text goes on with, and the pieces
before it stay as they are. -/
theorem pieces_append_of_newline (h : pieces (cs ++ ['\n']) = ps ++ [⟨some .newline, ['\n']⟩])
    (rest : List Char) : pieces (cs ++ ['\n'] ++ rest) = pieces (cs ++ ['\n']) ++ pieces rest := by
  have hline (rest : List Char) :
      pieces ('\n' :: rest) = ⟨some .newline, ['\n']⟩ :: pieces rest := by
    rw [pieces]
    rfl
  have hfront : pieces (cs ++ '\n' :: []) = ps ++ pieces ('\n' :: []) := by
    rw [h, hline, pieces]
  calc pieces (cs ++ ['\n'] ++ rest)
      = pieces (cs ++ '\n' :: rest) := by rw [List.append_assoc, List.singleton_append]
    _ = ps ++ pieces ('\n' :: rest) := pieces_local (by decide) (by decide) hfront rest
    _ = pieces (cs ++ ['\n']) ++ pieces rest := by
      rw [hline, h, List.append_assoc, List.singleton_append]

/-- A token that ends with the source is its last piece. -/
theorem pieces_of_stop (ht : t ∈ locate 0 (pieces a.toList))
    (hstop : t.span.stop = byteLength a.toList) :
    ∃ front, pieces a.toList = front ++ [⟨some t.kind, t.text.toList⟩] := by
  obtain ⟨front, ⟨kind, text⟩, behind, hpieces, rfl, rfl, hspan⟩ := exists_piece ht
  -- what stands behind the token has no bytes, so it is nothing
  have hnone : behind = [] := by
    by_contra hne
    obtain ⟨p, behind, rfl⟩ := List.exists_cons_of_ne_nil hne
    have hp : p.text ≠ [] := text_ne_nil_of_mem_pieces (by rw [hpieces]; simp)
    have hpos := byteLength_pos hp
    have hall := congrArg (fun ps => byteLength (ps.map Piece.text).flatten) hpieces
    simp only [flatten_pieces, List.map_append, List.flatten_append, List.map_cons,
      List.flatten_cons, byteLength_append] at hall
    rw [hspan] at hstop
    dsimp only at hstop
    omega
  rw [hnone] at hpieces
  exact ⟨front, hpieces⟩

theorem text_of_newline (ht : t ∈ tokenize a) (hkind : t.kind = .newline) :
    t.text.toList = ['\n'] := by
  have hlexeme := lexeme_of_mem_tokenize ht (by rw [hkind]; decide) (by rw [hkind]; decide)
  rw [hkind] at hlexeme
  generalize t.text.toList = text at hlexeme ⊢
  cases hlexeme
  rfl

/-- A source that closes its last line is cut into pieces independently of what follows it. -/
theorem ClosesLine.pieces_append (h : ClosesLine a) (rest : List Char) :
    pieces (a.toList ++ rest) = pieces a.toList ++ pieces rest := by
  obtain ⟨t, hlast, hkind, hstop⟩ := h
  have hmem : t ∈ (tokenize a).dropLast := List.mem_of_getLast? hlast
  have htext := text_of_newline (List.mem_of_mem_dropLast hmem) hkind
  rw [dropLast_tokenize] at hmem
  obtain ⟨front, hpieces⟩ := pieces_of_stop hmem hstop
  rw [hkind, htext] at hpieces
  have hchars : a.toList = (front.map Piece.text).flatten ++ ['\n'] := by
    rw [← flatten_pieces a.toList, hpieces]
    simp
  rw [hchars] at hpieces ⊢
  exact pieces_append_of_newline hpieces rest

/-- **Texts are read one behind the other where the first ends with a line end**: its tokens, but
for the end of the file, and then those of the second, moved behind it. -/
theorem tokenize_append_of_closesLine (h : ClosesLine a) (b : String) :
    tokenize (a ++ b) =
      (tokenize a).dropLast ++ (tokenize b).map (Token.behind (byteLength a.toList)) := by
  have hmoved : locate (byteLength a.toList) (pieces b.toList) =
      (locate 0 (pieces b.toList)).map (Token.behind (byteLength a.toList)) :=
    locate_move (fun n => by rw [Nat.zero_add]) (pieces b.toList)
  calc tokenize (a ++ b)
      = locate 0 (pieces a.toList ++ pieces b.toList) ++
          [⟨.endOfFile, "", Span.point (byteLength a.toList + byteLength b.toList)⟩] := by
        rw [tokenize, String.toList_append, h.pieces_append, byteLength_append]
    _ = locate 0 (pieces a.toList) ++ (locate (byteLength a.toList) (pieces b.toList) ++
          [⟨.endOfFile, "", Span.point (byteLength a.toList + byteLength b.toList)⟩]) := by
        rw [locate_append, flatten_pieces, Nat.zero_add, List.append_assoc]
    _ = (tokenize a).dropLast ++ (tokenize b).map (Token.behind (byteLength a.toList)) := by
        rw [dropLast_tokenize, tokenize, List.map_append, hmoved]
        rfl

/-- A line with a string that is never closed, and a line that would close it. -/
def openLine : String := "x = \"open // no comment\n"

theorem tokenize_append_of_closesLine_openLine :
    ClosesLine openLine ∧ tokenize (openLine ++ "shut\" = y") =
      (tokenize openLine).dropLast ++
        (tokenize "shut\" = y").map (Token.behind (byteLength openLine.toList)) :=
  have hcloses : ClosesLine openLine :=
    ⟨⟨.newline, "\n", ⟨23, 24⟩⟩, by decide +kernel, rfl, by decide +kernel⟩
  ⟨hcloses, tokenize_append_of_closesLine hcloses _⟩

/-- A comment that goes on behind the line end takes the line end with it. -/
example : ¬ (tokenize "x /*\n").dropLast <+: tokenize ("x /*\n" ++ "*/") := by decide +kernel

end ColorTheme
