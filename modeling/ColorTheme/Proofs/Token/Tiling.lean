import ColorTheme.Proofs.Item.Naming
import ColorTheme.Proofs.Token.Pattern

/-!
# Tokens tile the source

* `Tiles` : tokens stand one behind the other in a text, each a longest match of its pattern, with
  nothing but blanks and comments between them, and the end of the file closes them.
* `tiles_tokenize` : so do the tokens of a source.
* `tokenize_tiling` : so their spans are apart from each other and cut the source between
  characters, and their texts are texts of the patterns.
-/

set_option autoImplicit false

namespace ColorTheme

variable {source : String} {offset : Nat} {cs : List Char} {ts : List Token}

/-- Blanks and comments, one behind the other, in front of `rest`. -/
inductive IsSpacing : List Char → List Char → Prop
  | nil (rest : List Char) : IsSpacing [] rest
  | cons {text gap rest : List Char} (head : Skipped text (gap ++ rest))
      (others : IsSpacing gap rest) : IsSpacing (text ++ gap) rest

/-- `text` is cut off as a token of kind `kind` in front of `rest`: it is of that kind, and
whatever else of the language begins there is of that kind too and not longer. -/
structure IsToken (kind : TokenKind) (text rest : List Char) : Prop where
  fits : Fits (some kind) text rest
  longest : ∀ {kind' : Option TokenKind} {text' rest' : List Char},
    text' ++ rest' = text ++ rest → Begins kind' text' rest' →
      kind' = some kind ∧ text'.length ≤ text.length

/-- The tokens of a text that begins at byte `offset`: spacing, then a token and the tokens of the
rest, or the end of the file. -/
inductive Tiles : Nat → List Char → List Token → Prop
  | stop {offset : Nat} {gap : List Char} (between : IsSpacing gap []) :
      Tiles offset gap [⟨.endOfFile, "", Span.point (offset + byteLength gap)⟩]
  | token {offset : Nat} {kind : TokenKind} {gap text rest : List Char} {ts : List Token}
      (between : IsSpacing gap (text ++ rest)) (is : IsToken kind text rest)
      (others : Tiles (offset + byteLength gap + byteLength text) rest ts) :
      Tiles offset (gap ++ (text ++ rest))
        (⟨kind, String.ofList text,
          ⟨offset + byteLength gap, offset + byteLength gap + byteLength text⟩⟩ :: ts)

/-! ## One token -/

theorem Lexeme.ne_nil {kind : TokenKind} {text : List Char} (h : Lexeme kind text) : text ≠ [] := by
  obtain ⟨c, cs, rfl, -⟩ := h.covered []
  exact List.cons_ne_nil c cs

theorem Lexeme.kind_ne {kind : TokenKind} {text : List Char} (h : Lexeme kind text) :
    kind ≠ .endOfFile ∧ kind ≠ .invalid := by
  cases h <;> decide

/-- No token that is matched begins with a slash. -/
theorem Lexeme.not_slash {kind : TokenKind} {text : List Char} (h : Lexeme kind text) :
    text.head? ≠ some '/' := by
  cases h with
  | ident first others =>
    rintro ⟨⟩
    revert first
    decide
  | number h =>
    obtain ⟨d, ds, rfl, hd⟩ := h.exists_cons
    rintro ⟨⟩
    cases hd
  | _ => simp

/-- The characters of names, numbers and colors. -/
theorem Lexeme.chars {kind : TokenKind} {text : List Char} (h : Lexeme kind text)
    (hkind : kind = .ident ∨ kind = .number ∨ kind = .hex) :
    ∀ c ∈ text, c.isAlphanum = true ∨ c ∈ ['_', '-', '.', '#'] := by
  have hdigits {digits : List Char} (h : IsDigits digits) :
      ∀ c ∈ digits, c.isAlphanum = true ∨ c ∈ ['_', '-', '.', '#'] :=
    fun c hc => .inl (by rw [Char.isAlphanum, h.2 c hc, Bool.or_true])
  have hdecimal {cs : List Char} (h : IsDecimal cs) :
      ∀ c ∈ cs, c.isAlphanum = true ∨ c ∈ ['_', '-', '.', '#'] := by
    cases h with
    | whole h => exact hdigits h
    | fraction h hmore =>
      exact List.forall_mem_append.2
        ⟨hdigits h, List.forall_mem_cons.2 ⟨.inr (by decide), hdigits hmore⟩⟩
  cases h with
  | ident first others =>
    refine List.forall_mem_cons.2 ⟨?_, fun d hd => ?_⟩
    · rcases first with first | rfl
      · exact .inl (by rw [Char.isAlphanum, first, Bool.true_or])
      · exact .inr (by decide)
    · rcases others d hd with hd | rfl | rfl
      · exact .inl hd
      · exact .inr (by decide)
      · exact .inr (by decide)
  | number h => exact hdecimal h
  | negative h => exact List.forall_mem_cons.2 ⟨.inr (by decide), hdecimal h⟩
  | hex _ h => exact List.forall_mem_cons.2 ⟨.inr (by decide), fun d hd => .inl (h d hd)⟩
  | _ => simp at hkind

/-- Names, numbers and colors are written on one line. -/
theorem Lexeme.line {kind : TokenKind} {text : List Char} (h : Lexeme kind text)
    (hkind : kind = .ident ∨ kind = .number ∨ kind = .hex) : '\n' ∉ text := fun hmem =>
  absurd (h.chars hkind _ hmem) (by decide)

namespace IsToken

variable {kind : TokenKind} {text rest : List Char}

theorem ne_nil (h : IsToken kind text rest) : text ≠ [] := by
  cases h.fits with
  | matched h => cases h with | lexeme rest h => exact h.ne_nil
  | unmatched rest h => cases h <;> exact List.cons_ne_nil _ _

theorem kind_ne (h : IsToken kind text rest) : kind ≠ .endOfFile := by
  cases h.fits with
  | matched h => cases h with | lexeme rest h => exact h.kind_ne.1
  | unmatched rest h => decide

theorem lexeme (h : IsToken kind text rest) (hkind : kind ≠ .invalid) : Lexeme kind text := by
  cases h.fits with
  | matched h => cases h with | lexeme rest h => exact h
  | unmatched rest h => exact absurd rfl hkind

/-- Only a comment that is never closed begins as a block comment does. -/
theorem not_comment {comment : List Char} (h : IsToken kind text rest) :
    ¬ '/' :: '*' :: (comment ++ ['*', '/']) <+: text := by
  rintro ⟨more, rfl⟩
  cases h.fits with
  | matched h =>
    cases h with
    | lexeme rest h => exact h.not_slash rfl
  | unmatched rest h =>
    cases h with
    | openComment h =>
      refine h ⟨comment, more, ?_⟩
      simp

end IsToken

/-- What is cut off as a token is one. -/
theorem isToken_of_measure {kind : TokenKind} {c : Char} {cs : List Char} {n : Nat}
    (h : Piece.measure c cs = (some kind, n)) : IsToken kind (c :: cs.take n) (cs.drop n) := by
  have hfits := fits_measure c cs
  rw [h] at hfits
  refine ⟨hfits, fun {kind' text' rest'} htext hbegins => ?_⟩
  obtain ⟨d, ds, rfl, hkind, hlength⟩ := hbegins.covered
  obtain ⟨rfl, hds⟩ : d = c ∧ ds ++ rest' = cs := by simpa using htext
  rw [hds, h] at hkind hlength
  have hle : ds.length ≤ cs.length := by
    rw [← hds, List.length_append]
    exact Nat.le_add_right _ _
  refine ⟨hkind.symm, ?_⟩
  rw [List.length_cons, List.length_cons, List.length_take]
  have hn : ds.length ≤ n := hlength
  omega

/-! ## All tokens -/

/-- What is skipped in front of a text is spacing of its first token. -/
theorem Tiles.skip {text rest : List Char} (hskip : Skipped text rest)
    (h : Tiles (offset + byteLength text) rest ts) : Tiles offset (text ++ rest) ts := by
  cases h with
  | stop between =>
    have hspacing : IsSpacing (text ++ rest) [] := .cons (by rwa [List.append_nil]) between
    have h : Tiles offset (text ++ rest) _ := .stop hspacing
    rwa [byteLength_append, ← Nat.add_assoc] at h
  | @token _ kind gap inner rest ts between is others =>
    have hspacing : IsSpacing (text ++ gap) (inner ++ rest) := .cons hskip between
    rw [Nat.add_assoc offset, ← byteLength_append] at others ⊢
    rw [← List.append_assoc]
    exact .token hspacing is others

theorem tiles_locate (offset : Nat) (cs : List Char) :
    Tiles offset cs (locate offset (pieces cs) ++
      [⟨.endOfFile, "", Span.point (offset + byteLength cs)⟩]) := by
  fun_induction pieces cs generalizing offset with
  | case1 => exact .stop (.nil [])
  | case2 c cs ih =>
    obtain ⟨kind?, n, hmeasure⟩ : ∃ kind? n, Piece.measure c cs = (kind?, n) := ⟨_, _, rfl⟩
    have ih := ih (offset + byteLength (c :: cs.take (Piece.measure c cs).2))
    rw [hmeasure] at ih ⊢
    dsimp only at ih ⊢
    have hsplit : c :: cs = (c :: cs.take n) ++ cs.drop n := by simp
    have hlength : offset + byteLength (c :: cs) =
        offset + byteLength (c :: cs.take n) + byteLength (cs.drop n) := by
      rw [hsplit, byteLength_append, Nat.add_assoc]
    rw [hlength]
    cases kind? with
    | none =>
      have hfits := fits_measure c cs
      rw [hmeasure] at hfits
      have hskip : Skipped (c :: cs.take n) (cs.drop n) := by
        cases hfits with | matched h => cases h with | skipped h => exact h
      rw [hsplit]
      exact Tiles.skip hskip ih
    | some kind =>
      have h : Tiles offset ([] ++ (c :: cs.take n ++ cs.drop n)) _ :=
        .token (.nil _) (isToken_of_measure hmeasure) ih
      rw [List.nil_append, ← hsplit] at h
      exact h

namespace Tiles

theorem bounds (h : Tiles offset cs ts) :
    ∀ t ∈ ts, offset ≤ t.span.start ∧ t.span.start ≤ t.span.stop ∧
      t.span.stop ≤ offset + byteLength cs := by
  induction h with
  | stop between =>
    intro t ht
    rw [List.mem_singleton.1 ht]
    dsimp only [Span.point]
    omega
  | @token offset kind gap text rest ts between is others ih =>
    intro t ht
    rw [byteLength_append, byteLength_append]
    rcases List.mem_cons.1 ht with rfl | ht
    · dsimp only
      omega
    · have ht := ih t ht
      omega

theorem apart (h : Tiles offset cs ts) :
    ts.Pairwise fun s t => s.span.stop ≤ t.span.start := by
  induction h with
  | stop between => exact List.pairwise_singleton _ _
  | token between is others ih => exact .cons (fun t ht => (others.bounds t ht).1) ih

/-- The tokens but for the end of the file, which stands at the end of the text. -/
theorem closed (h : Tiles offset cs ts) :
    ∃ front, ts = front ++ [⟨.endOfFile, "", Span.point (offset + byteLength cs)⟩] ∧
      ∀ t ∈ front, ∃ rest, IsToken t.kind t.text.toList rest ∧ t.span.start < t.span.stop := by
  induction h with
  | stop between => exact ⟨[], rfl, by simp⟩
  | @token offset kind gap text rest ts between is others ih =>
    obtain ⟨front, rfl, hfront⟩ := ih
    have hpos := byteLength_pos is.ne_nil
    rw [byteLength_append, byteLength_append, ← Nat.add_assoc, ← Nat.add_assoc]
    refine ⟨_, List.cons_append.symm, List.forall_mem_cons.2 ⟨⟨rest, ?_, ?_⟩, hfront⟩⟩
    · dsimp only
      rw [String.toList_ofList]
      exact is
    · dsimp only
      omega

end Tiles

/-- What the tokens of a source are. -/
structure Tiling (source : String) : Prop where
  /-- Tokens and spacing, one behind the other, are the source. -/
  tiles : Tiles 0 source.toList (tokenize source)
  /-- One end of the file, at the end, and no other token is empty. -/
  closed : ∃ ts, tokenize source =
      ts ++ [⟨.endOfFile, "", Span.point (byteLength source.toList)⟩] ∧
    ∀ t ∈ ts, t.kind ≠ .endOfFile ∧ t.span.start < t.span.stop
  apart : (tokenize source).Pairwise fun s t => s.span.stop ≤ t.span.start
  /-- A token has the text of the source between two of its characters. -/
  texts : ∀ t ∈ tokenize source, IsBoundary source.toList t.span.start ∧
    IsBoundary source.toList t.span.stop ∧ t.span.slice? source.toList = some t.text.toList
  lexemes : ∀ t ∈ tokenize source, t.kind ≠ .endOfFile → t.kind ≠ .invalid →
    Lexeme t.kind t.text.toList
  /-- A block comment is no token, nor does a token begin with one. -/
  comments : ∀ t ∈ tokenize source, ∀ comment,
    ¬ '/' :: '*' :: (comment ++ ['*', '/']) <+: t.text.toList

theorem isBoundary_of_slice? {s : Span} {inside : List Char} (h : s.slice? cs = some inside) :
    IsBoundary cs s.start ∧ IsBoundary cs s.stop := by
  obtain ⟨before, after, hcs, hstart, hstop⟩ := Span.slice?_eq_some_iff.1 h
  constructor
  · exact isBoundary_iff.2 ⟨before, inside ++ after, by rw [hcs, List.append_assoc], hstart⟩
  · exact isBoundary_iff.2 ⟨before ++ inside, after, hcs, hstop⟩

theorem tiles_tokenize (source : String) : Tiles 0 source.toList (tokenize source) := by
  have h := tiles_locate 0 source.toList
  rwa [Nat.zero_add] at h

/-- The end of the file is the last token of a source, and the only empty one. -/
theorem exists_front_tokenize (source : String) :
    ∃ ts, tokenize source = ts ++ [⟨.endOfFile, "", Span.point (byteLength source.toList)⟩] ∧
      ∀ t ∈ ts, (∃ rest, IsToken t.kind t.text.toList rest) ∧ t.span.start < t.span.stop := by
  obtain ⟨front, heq, hfront⟩ := (tiles_tokenize source).closed
  rw [Nat.zero_add] at heq
  refine ⟨front, heq, fun t ht => ?_⟩
  obtain ⟨rest, is, hspan⟩ := hfront t ht
  exact ⟨⟨rest, is⟩, hspan⟩

theorem apart_tokenize (source : String) :
    (tokenize source).Pairwise fun s t => s.span.stop ≤ t.span.start :=
  (tiles_tokenize source).apart

theorem isToken_or_end {source : String} {t : Token} (h : t ∈ tokenize source) :
    (∃ rest, IsToken t.kind t.text.toList rest) ∨ t.kind = .endOfFile ∧ t.text = "" := by
  obtain ⟨front, heq, hfront⟩ := exists_front_tokenize source
  rw [heq, List.mem_append, List.mem_singleton] at h
  rcases h with h | rfl
  · exact .inl (hfront t h).1
  · exact .inr ⟨rfl, rfl⟩

/-- The text of a token matches the pattern of its kind. -/
theorem lexeme_of_mem_tokenize {source : String} {t : Token} (h : t ∈ tokenize source)
    (hkind : t.kind ≠ .endOfFile) (hvalid : t.kind ≠ .invalid) : Lexeme t.kind t.text.toList := by
  rcases isToken_or_end h with ⟨rest, is⟩ | ⟨hend, -⟩
  · exact is.lexeme hvalid
  · exact absurd hend hkind

/-- **Tokens tile the source**: each character of it stands in one token or in the spacing between
two of them. -/
theorem tokenize_tiling (source : String) : Tiling source := by
  constructor
  case tiles => exact tiles_tokenize source
  case closed =>
    obtain ⟨front, heq, hfront⟩ := exists_front_tokenize source
    refine ⟨front, heq, fun t ht => ?_⟩
    obtain ⟨⟨rest, is⟩, hspan⟩ := hfront t ht
    exact ⟨is.kind_ne, hspan⟩
  case apart => exact apart_tokenize source
  case texts =>
    intro t ht
    have hslice := slice?_of_mem_tokenize ht
    have hboundary := isBoundary_of_slice? hslice
    exact ⟨hboundary.1, hboundary.2, hslice⟩
  case lexemes => exact fun t ht => lexeme_of_mem_tokenize ht
  case comments =>
    intro t ht comment hprefix
    rcases isToken_or_end ht with ⟨rest, is⟩ | ⟨-, htext⟩
    · exact is.not_comment hprefix
    · rw [htext] at hprefix
      cases List.prefix_nil.1 hprefix

end ColorTheme
