import ColorTheme.Proofs.Item.Retouch
import ColorTheme.Proofs.Item.Value
import ColorTheme.Proofs.Token.Locality
import ColorTheme.Proofs.Token.Tiling

/-!
# A color literal with another color

In the text of a source a color literal is replaced by another, in quotes if it was.

* `Retouch.repaint` : the place of the literal is given the color, and what stands behind it moves.
* `pieces_wording` : where a color literal was cut off, another one is, of the same kind.
* `pieces_repainted` : the pieces before it and behind it stay as they are.
* `exists_repainted` : so the tokens of the new source are those of the old one, retouched.
-/

set_option autoImplicit false

namespace ColorTheme

/-- The text of a color in a literal of the kind: in quotes, or without. -/
def TokenKind.wording (kind : TokenKind) (c : Color) : String :=
  if kind = .quoted then "\"" ++ c.hex ++ "\"" else c.hex

theorem TokenKind.toList_wording_quoted (c : Color) :
    (TokenKind.quoted.wording c).toList = '"' :: ('#' :: c.hexDigits ++ ['"']) := by
  rw [wording, if_pos rfl]
  simp only [String.toList_append, Color.hex, String.toList_ofList]
  rfl

theorem TokenKind.toList_wording_hex (c : Color) :
    (TokenKind.hex.wording c).toList = '#' :: c.hexDigits := by
  rw [wording, if_neg (by decide), Color.hex, String.toList_ofList]

/-- The change that a literal at `place` is given the color `c`, with a text of `length` bytes. -/
def Retouch.repaint (place : Span) (length : Nat) (c : Color) : Retouch where
  move n := if n ≤ place.start then n else max place.start (n + length - place.length)
  paint s := if s = place then some c else none
  mono := by
    intro m n hmn
    dsimp only
    split <;> split <;> omega
  zero := by simp

/-! ## One literal -/

section

variable {cs : List Char} {offset : Nat} {ps : List Piece} {t : Token}

/-- Letters and digits can stand in quotes. -/
theorem isInside_of_isAlphanum {inside : List Char} (h : ∀ d ∈ inside, d.isAlphanum = true) :
    IsInside inside := by
  induction inside with
  | nil => exact .nil
  | cons d inside ih =>
    have hd : d.isAlphanum = true := h d List.mem_cons_self
    refine .plain ?_ ?_ ?_ (ih fun e he => h e (List.mem_cons_of_mem d he)) <;>
      (rintro rfl; cases hd)

/-- **A color literal is cut off where another was**, with the same text behind it. -/
theorem pieces_wording {kind : TokenKind} {text behind : List Char} {rest : List Piece}
    (hkind : kind = .quoted ∨ kind = .hex) (hlexeme : Lexeme kind text)
    (h : pieces (text ++ behind) = ⟨some kind, text⟩ :: rest) (c : Color) :
    pieces ((kind.wording c).toList ++ behind) =
      ⟨some kind, (kind.wording c).toList⟩ :: pieces behind := by
  have hdigits : ∀ d ∈ c.hexDigits, d.isAlphanum = true :=
    fun d hd => isAlphanum_of_mem_hexDigits hd
  have hnonempty : c.hexDigits ≠ [] := by
    rw [Color.hexDigits, hexByte]
    exact List.cons_ne_nil _ _
  rcases hkind with rfl | rfl
  · -- a string ends at its second quote, whatever stands behind it
    have hinside : IsInside ('#' :: c.hexDigits) :=
      .plain (by decide) (by decide) (by decide) (isInside_of_isAlphanum hdigits)
    rw [TokenKind.toList_wording_quoted, List.cons_append, List.append_assoc,
      List.singleton_append, pieces, Piece.measure]
    simp only [hinside.quotedLength_eq]
    rw [List.append_cons, List.take_left' (by simp), List.drop_left' (by simp)]
    rfl
  · -- what stood behind the old literal does not go on with a letter or digit
    obtain ⟨digits, rfl, hold, hne⟩ : ∃ digits, text = '#' :: digits ∧
        (∀ d ∈ digits, d.isAlphanum = true) ∧ digits ≠ [] := by
      cases hlexeme with
      | hex some hdigits => exact ⟨_, rfl, hdigits, some⟩
    have hrun : runLength Char.isAlphanum behind = 0 := by
      rw [List.cons_append, pieces, measure_hex hne hold, List.cons.injEq, Piece.mk.injEq,
        List.cons.injEq] at h
      have htake := congrArg List.length h.1.2.2
      have htotal : runLength Char.isAlphanum behind ≤ behind.length :=
        (List.takeWhile_prefix Char.isAlphanum).length_le
      rw [List.length_take, List.length_append] at htake
      omega
    rw [TokenKind.toList_wording_hex, List.cons_append, pieces, measure_hex hnonempty hdigits, hrun]
    dsimp only
    rw [Nat.add_zero, List.take_left, List.drop_left]

/-! ## The whole source -/

/-- A color literal begins with the same character as the one before it. -/
theorem exists_head_of_lexeme {kind : TokenKind} {text : List Char} (hlexeme : Lexeme kind text)
    (hkind : kind = .quoted ∨ kind = .hex) (c : Color) :
    ∃ q more more', text = q :: more ∧ (kind.wording c).toList = q :: more' ∧ q ≠ '.' ∧
      q ≠ '\\' := by
  rcases hkind with rfl | rfl
  · cases hlexeme with
    | quoted _ =>
      exact ⟨'"', _, _, rfl, TokenKind.toList_wording_quoted c, by decide, by decide⟩
  · cases hlexeme with
    | hex _ _ => exact ⟨'#', _, _, rfl, TokenKind.toList_wording_hex c, by decide, by decide⟩

/-- **Another color in a literal of color changes no other piece.** -/
theorem pieces_repainted {front behind : List Piece} {kind : TokenKind} {text : List Char}
    (hkind : kind = .quoted ∨ kind = .hex) (hlexeme : Lexeme kind text)
    (h : pieces cs = front ++ ⟨some kind, text⟩ :: behind) (c : Color) :
    pieces ((front.map Piece.text).flatten ++
        ((kind.wording c).toList ++ (behind.map Piece.text).flatten)) =
      front ++ ⟨some kind, (kind.wording c).toList⟩ :: behind := by
  obtain ⟨q, more, more', rfl, hwording, hpoint, hescape⟩ := exists_head_of_lexeme hlexeme hkind c
  have hfrom := eq_pieces_of_append h
  rw [List.map_cons, List.flatten_cons] at hfrom
  have hbehind : behind = pieces (behind.map Piece.text).flatten := by
    have hsplit : pieces cs = (front ++ [⟨some kind, q :: more⟩]) ++ behind := by
      rw [h, List.append_assoc, List.singleton_append]
    exact eq_pieces_of_append hsplit
  have hcs : (front.map Piece.text).flatten ++ q :: (more ++ (behind.map Piece.text).flatten) =
      cs := by
    rw [← flatten_pieces cs, h, List.map_append, List.flatten_append, List.map_cons,
      List.flatten_cons]
    rfl
  have hfront := pieces_local hpoint hescape (hcs.symm ▸ (h.trans (congrArg _ hfrom)))
    (more' ++ (behind.map Piece.text).flatten)
  rw [hwording, List.cons_append, hfront, ← List.cons_append, ← hwording,
    pieces_wording hkind hlexeme hfrom.symm c, ← hbehind]

theorem Retouch.span_repaint_of_le {place s : Span} (hstart : s.start ≤ place.start)
    (hstop : s.stop ≤ place.start) (length : Nat) (c : Color) :
    (Retouch.repaint place length c).span s = s := by
  rw [Retouch.span, Retouch.repaint]
  dsimp only
  rw [if_pos hstart, if_pos hstop]

theorem Retouch.move_repaint {place : Span} {n : Nat} (hplace : place.start < place.stop)
    (length : Nat) (c : Color) :
    (Retouch.repaint place length c).move (place.stop + n) = place.start + length + n := by
  show (if place.stop + n ≤ place.start then _ else _) = _
  rw [if_neg (by omega), Span.length]
  omega

theorem Retouch.span_repaint_point {place : Span} {n : Nat} (hplace : place.start < place.stop)
    (length : Nat) (c : Color) :
    (Retouch.repaint place length c).span (.point (place.stop + n)) =
      .point (place.start + length + n) := by
  rw [Retouch.span, Span.point, Retouch.move_repaint hplace]
  rfl

/-- The new text of the literal. -/
theorem Retouch.text_repaint {kind : TokenKind} {value : String} {old c : Color}
    (h : t.literal? = some (kind, value))
    (hvalue : Color.ofHex? value = some old) (length : Nat) :
    ((Retouch.repaint t.span length c).token t).text = t.kind.wording c := by
  have hpaint : ∀ v, v = value → (Retouch.repaint t.span length c).paint? t.span v = some c := by
    rintro v rfl
    rw [Retouch.paint?, hvalue, Option.bind_some]
    exact if_pos rfl
  show Retouch.text _ t = _
  rw [Retouch.text, TokenKind.wording]
  unfold Token.literal? at h
  split at h
  · rename_i hk
    simp only [hk]
    rw [hpaint _ (congrArg Prod.snd (Option.some.inj h))]
    rfl
  · rename_i hk
    simp only [hk]
    rw [Retouch.value, hpaint _ (congrArg Prod.snd (Option.some.inj h))]
    rfl
  · cases h

/-- The new literal. -/
theorem Retouch.token_repaint {kind : TokenKind} {value : String} {old c : Color}
    (h : t.literal? = some (kind, value))
    (hvalue : Color.ofHex? value = some old) (hplace : t.span.start < t.span.stop) {length : Nat} :
    (Retouch.repaint t.span length c).token t =
      ⟨t.kind, t.kind.wording c, ⟨t.span.start, t.span.start + length⟩⟩ := by
  have htext := Retouch.text_repaint (c := c) h hvalue length
  have hstop := Retouch.move_repaint (n := 0) hplace length c
  have hstart : (Retouch.repaint t.span length c).move t.span.start = t.span.start :=
    if_pos (Nat.le_refl _)
  rw [Nat.add_zero, Nat.add_zero] at hstop
  have hspan : (Retouch.repaint t.span length c).span t.span =
      ⟨t.span.start, t.span.start + length⟩ := by
    rw [Retouch.span, hstart, hstop]
  rw [← htext, ← hspan]
  rfl

/-- The tokens before a literal stay where they are. -/
theorem map_token_locate_front {front : List Piece} {place : Span} (hps : ∀ p ∈ front, p.text ≠ [])
    (hplace : place.start = byteLength (front.map Piece.text).flatten) (length : Nat) (c : Color) :
    (locate 0 front).map (Retouch.repaint place length c).token = locate 0 front := by
  refine (List.map_congr_left fun t ht => ?_).trans (List.map_id _)
  have hstart := (start_locate hps t ht).2
  have hstop := (stop_locate ht).2
  have hne : t.span ≠ place := by
    rintro rfl
    omega
  rw [Retouch.token_of_none _ (if_neg hne),
    Retouch.span_repaint_of_le (by omega) (by omega)]
  rfl

/-- The tokens behind a literal move by the change in its length. -/
theorem map_token_locate_behind {behind : List Piece} {place : Span}
    (hps : ∀ p ∈ behind, p.text ≠ []) (hplace : place.start < place.stop) (length : Nat)
    (c : Color) :
    (locate place.stop behind).map (Retouch.repaint place length c).token =
      locate (place.start + length) behind := by
  rw [locate_move (fun n => Retouch.move_repaint hplace length c) behind]
  refine List.map_congr_left fun t ht => ?_
  have hstart := (start_locate hps t ht).1
  have hne : t.span ≠ place := by
    rintro rfl
    omega
  rw [Retouch.token_of_none _ (if_neg hne)]
  rfl

/-- **Another color in a literal of color changes no other token.** -/
theorem exists_repainted {source value : String} {kind : TokenKind} {old : Color}
    (ht : t ∈ tokenize source) (hliteral : t.literal? = some (kind, value))
    (hvalue : Color.ofHex? value = some old) (c : Color) :
    ∃ before after, source.toList = before ++ t.text.toList ++ after ∧
      t.span = ⟨byteLength before, byteLength (before ++ t.text.toList)⟩ ∧
      tokenize (String.ofList (before ++ (t.kind.wording c).toList ++ after)) =
        (tokenize source).map
          (Retouch.repaint t.span (byteLength (t.kind.wording c).toList) c).token := by
  obtain ⟨hsame, hkind⟩ := Token.literal?_kind hliteral
  rw [← hsame] at hkind
  have hend : t.kind ≠ .endOfFile := by rcases hkind with h | h <;> rw [h] <;> decide
  have hvalid : t.kind ≠ .invalid := by rcases hkind with h | h <;> rw [h] <;> decide
  have hlexeme := lexeme_of_mem_tokenize ht hend hvalid
  have hlocated : t ∈ locate 0 (pieces source.toList) := by
    rcases List.mem_append.1 ht with h | h
    · exact h
    · rw [List.mem_singleton.1 h] at hend
      exact absurd rfl hend
  obtain ⟨front, ⟨kind, text⟩, behind, hpieces, rfl, rfl, hspan⟩ := exists_piece hlocated
  rw [Nat.zero_add] at hspan
  have hnew := pieces_repainted hkind hlexeme hpieces c
  have hcut : source.toList = (front.map Piece.text).flatten ++ t.text.toList ++
      (behind.map Piece.text).flatten := by
    rw [← flatten_pieces source.toList, hpieces, List.map_append, List.flatten_append,
      List.map_cons, List.flatten_cons, List.append_assoc]
  refine ⟨_, _, hcut, ?_, ?_⟩
  · rw [hspan, byteLength_append]
  have hnonempty : ∀ p ∈ front ++ ⟨some t.kind, t.text.toList⟩ :: behind, p.text ≠ [] := by
    intro p hp
    rw [← hpieces] at hp
    exact text_ne_nil_of_mem_pieces hp
  have hfront : ∀ p ∈ front, p.text ≠ [] := fun p hp => hnonempty p (by simp [hp])
  have hbehind : ∀ p ∈ behind, p.text ≠ [] := fun p hp => hnonempty p (by simp [hp])
  have hstart : t.span.start = byteLength (front.map Piece.text).flatten := by rw [hspan]
  have hstop : t.span.stop = t.span.start + byteLength t.text.toList := by rw [hspan]
  have hlength : 0 < byteLength t.text.toList := byteLength_pos hlexeme.ne_nil
  have hplace : t.span.start < t.span.stop := by omega
  have hend' : byteLength source.toList =
      t.span.stop + byteLength (behind.map Piece.text).flatten := by
    rw [hcut, byteLength_append, byteLength_append, hstop, hstart]
  rw [tokenize, tokenize, String.toList_ofList, List.append_assoc, hnew, hpieces, locate_append,
    locate_append, locate, locate, List.map_append, List.map_append,
    map_token_locate_front hfront hstart]
  dsimp only
  rw [Nat.zero_add, ← hstart, ← hstop, String.ofList_toList, String.ofList_toList, List.map_cons,
    map_token_locate_behind hbehind hplace, Retouch.token_repaint hliteral hvalue hplace, hend',
    byteLength_append, byteLength_append, ← hstart, ← Nat.add_assoc, List.map_singleton]
  exact congrArg (fun s => _ ++ [Token.mk .endOfFile "" s])
    (Retouch.span_repaint_point hplace _ c).symm

end

end ColorTheme
