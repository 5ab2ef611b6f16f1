import ColorTheme.Editor.OpenBlocks
import ColorTheme.Proofs.Editor.Around
import ColorTheme.Proofs.Grammar.Document
import Mathlib.Data.List.Infix

/-!
# Open blocks, found without the grammar

The scan for open blocks reads characters, and knows neither tokens nor items.

* `passesAll` : the comments of a text hold nothing that the scan would take for code.
* `Scan.Agrees` : the scan has opened the blocks that an outline of the tokens has, and knows the
  word that a brace would open the next one for.  `Scan.Agrees.skip` and `Scan.Agrees.token` keep
  this up over one piece.
* `openBlocks_eq_blocksAround` : in front of an offset of a document that follows the grammar, the
  scan leaves open the blocks around that offset.
-/

set_option autoImplicit false

namespace ColorTheme

/-! ## Pieces in front of each other -/

/-- The text of pieces. -/
def textOf (ps : List Piece) : List Char := (ps.map Piece.text).flatten

theorem textOf_cons (p : Piece) (ps : List Piece) : textOf (p :: ps) = p.text ++ textOf ps := rfl

/-- The kind of the first token among pieces. -/
def nextKind? (ps : List Piece) : Option TokenKind := ps.findSome? Piece.kind

/-- Each of the pieces is cut off in front of the others. -/
inductive Fitted : List Piece → Prop
  | nil : Fitted []
  | cons {p : Piece} {ps : List Piece} (head : Fits p.kind p.text (textOf ps))
      (nonempty : p.text ≠ []) (others : Fitted ps) : Fitted (p :: ps)

theorem fitted_pieces (cs : List Char) : Fitted (pieces cs) := by
  fun_induction pieces cs with
  | case1 => exact .nil
  | case2 c cs ih =>
    refine .cons ?_ (List.cons_ne_nil _ _) ih
    rw [textOf, flatten_pieces]
    exact fits_measure c cs

/-- The offset, counted from the first piece, is strictly inside of a token or a comment. -/
def strictlyInside : List Piece → Nat → Bool
  | [], _ => false
  | p :: ps, offset =>
    if offset < byteLength p.text then 0 < offset && !p.text.all isGap
    else strictlyInside ps (offset - byteLength p.text)

/-- The scan passes over what stands between tokens, in front of `behind`: a comment that ends with
its line and begins with `#` holds no brace, and a comment that is closed also no quote and nothing
like `//`, and does not stand in front of a brace that opens a block. -/
def passes (text : List Char) (behind : List Piece) : Bool :=
  match text with
  | '#' :: comment => comment.all fun c => c != '\x7b' && c != '\x7d'
  | '/' :: '*' :: comment =>
    (comment.all fun c => c != '\x7b' && c != '\x7d' && c != '"') &&
      !decide (['/', '/'] <:+: comment ++ (textOf behind).take 1) &&
      nextKind? behind != some .openBrace
  | _ => true

/-- The scan passes over all that stands between the tokens of a text. -/
def passesAll : List Piece → Bool
  | [] => true
  | p :: ps => (p.kind.isSome || passes p.text ps) && passesAll ps

/-! ## The scan over a text -/

namespace Scan

variable {s s' s₁ : Scan} {m m' m₁ : ScanMode} {index : Nat} {text rest behind : List Char}
  {c : Char}

/-- The word that a brace would open a block for. -/
def complete (s : Scan) : List Char := if s.word.isEmpty then s.lastWord else s.word

/-- In front of `behind`, and of any part of it at which the text ends, the scan comes through
`text` from the one state to the other. -/
def Comes (s : Scan) (m : ScanMode) (index : Nat) (text behind : List Char) (s' : Scan)
    (m' : ScanMode) : Prop :=
  ∀ tail, tail <+: behind → s.run m index (text ++ tail) = s'.run m' (index + text.length) tail

namespace Comes

theorem nil (s : Scan) (m : ScanMode) (behind : List Char) : s.Comes m index [] behind s m :=
  fun _ _ => rfl

theorem append (h₁ : s.Comes m index text (rest ++ behind) s₁ m₁)
    (h₂ : s₁.Comes m₁ (index + text.length) rest behind s' m') :
    s.Comes m index (text ++ rest) behind s' m' := by
  intro tail htail
  rw [List.append_assoc, h₁ _ ((List.prefix_append_right_inj rest).2 htail), h₂ tail htail,
    List.length_append, Nat.add_assoc]

theorem cons (h₁ : s.Comes m index [c] (rest ++ behind) s₁ m₁)
    (h₂ : s₁.Comes m₁ (index + 1) rest behind s' m') : s.Comes m index (c :: rest) behind s' m' :=
  h₁.append h₂

end Comes

/-! ### In code -/

theorem comes_char (s : Scan) (hc : c ∉ ['\x7b', '\x7d', '"'])
    (hslash : c = '/' → behind.head? ≠ some '/') :
    s.Comes .code index [c] behind (s.readChar c) .code := by
  intro tail htail
  simp only [List.mem_cons, List.not_mem_nil, or_false, not_or] at hc
  rw [List.singleton_append, Scan.run.eq_5, if_neg hc.2.2, if_neg hc.1, if_neg hc.2.1]
  · rfl
  · rintro cs rfl rfl
    obtain ⟨ds, rfl⟩ := htail
    exact hslash rfl rfl

/-- A text without braces, quotes and line comments is read one character at a time. -/
theorem comes_code (s : Scan) (h : ∀ c ∈ text, c ∉ ['\x7b', '\x7d', '"'])
    (hslashes : ¬ ['/', '/'] <:+: text ++ behind.take 1) :
    s.Comes .code index text behind (text.foldl readChar s) .code := by
  induction text generalizing s index with
  | nil => exact .nil s .code behind
  | cons c cs ih =>
    rw [List.forall_mem_cons] at h
    rw [List.cons_append, List.infix_cons_iff, not_or] at hslashes
    refine (comes_char s h.1 ?_).cons (ih _ h.2 hslashes.2)
    rintro rfl hhead
    refine hslashes.1 ?_
    cases cs with
    | nil =>
      cases behind with
      | nil => cases hhead
      | cons d ds => simp_all
    | cons d ds => simp_all

/-- Two slashes stand in no text of which only the last character may be one. -/
theorem not_slashes (h : '/' ∉ text) (behind : List Char) :
    ¬ ['/', '/'] <:+: text ++ behind.take 1 := by
  intro hslashes
  have hcount := hslashes.sublist.count_le '/'
  have hbehind : (behind.take 1).count '/' ≤ 1 :=
    Nat.le_trans List.count_le_length (List.length_take_le 1 behind)
  have htext : text.count '/' = 0 := List.count_eq_zero.2 h
  rw [List.count_append, htext] at hcount
  simp at hcount
  omega

theorem readChar_stack (s : Scan) (c : Char) : (s.readChar c).stack = s.stack := by
  unfold readChar
  split <;> rfl

theorem foldl_readChar_stack (s : Scan) (text : List Char) :
    (text.foldl readChar s).stack = s.stack := by
  induction text generalizing s with
  | nil => rfl
  | cons c cs ih => rw [List.foldl_cons, ih, readChar_stack]

theorem foldl_readChar_word (s : Scan) (h : ∀ c ∈ text, isWordChar c = true) :
    text.foldl readChar s = { s with word := s.word ++ text } := by
  induction text generalizing s with
  | nil => simp
  | cons c cs ih =>
    rw [List.forall_mem_cons] at h
    rw [List.foldl_cons, ih _ h.2, readChar, if_pos h.1]
    simp

theorem readChar_gap (s : Scan) (h : isGap c = true) : s.readChar c = ⟨s.stack, s.complete, []⟩ := by
  rcases isGap_iff.1 h with rfl | rfl | rfl | rfl <;> rfl

theorem comes_gaps (s : Scan) (h : ∀ c ∈ text, isGap c = true) (behind : List Char) :
    s.Comes .code index text behind (text.foldl readChar s) .code := by
  refine comes_code s (fun c hc => ?_) (not_slashes (fun hc => ?_) behind)
  · have hgap := h c hc
    rcases isGap_iff.1 hgap with rfl | rfl | rfl | rfl <;> decide
  · exact absurd (h _ hc) (by decide)

/-- Blanks end the word that is being read and keep it in mind. -/
theorem foldl_readChar_gaps (s : Scan) (h : ∀ c ∈ text, isGap c = true) :
    (text.foldl readChar s).complete = s.complete ∧
      (s.word = [] → (text.foldl readChar s).word = []) := by
  induction text generalizing s with
  | nil => exact ⟨rfl, id⟩
  | cons c cs ih =>
    rw [List.forall_mem_cons] at h
    obtain ⟨hcomplete, hword⟩ := ih (s.readChar c) h.2
    rw [readChar_gap s h.1] at hcomplete hword
    rw [List.foldl_cons, readChar_gap s h.1]
    exact ⟨hcomplete, fun _ => hword rfl⟩

theorem comes_openBrace (s : Scan) (index : Nat) (behind : List Char) :
    s.Comes .code index ['\x7b'] behind (s.openBlock (index + 1)) .code := by
  intro tail _
  rw [List.singleton_append, Scan.run.eq_5, if_neg (by decide), if_pos rfl]
  · rfl
  · intro cs hc
    cases hc

theorem comes_closeBrace (s : Scan) (index : Nat) (behind : List Char) :
    s.Comes .code index ['\x7d'] behind s.closeBlock .code := by
  intro tail _
  rw [List.singleton_append, Scan.run.eq_5, if_neg (by decide), if_neg (by decide), if_pos rfl]
  · rfl
  · intro cs hc
    cases hc

/-! ### In strings and comments -/

theorem comes_commentChar (s : Scan) (index : Nat) (c : Char) (behind : List Char) :
    s.Comes .comment index [c] behind s (if c = '\n' then .code else .comment) := by
  intro tail _
  rw [List.singleton_append, Scan.run]
  rfl

theorem comes_stringChar (s : Scan) (index : Nat) (escaped : Bool) (c : Char) (behind : List Char) :
    s.Comes (.string escaped) index [c] behind s
      (if c = '\\' ∧ escaped = false then .string true
      else if (c = '"' ∧ escaped = false) ∨ c = '\n' then .code
      else .string false) := by
  intro tail _
  rw [List.singleton_append, Scan.run]
  split
  · rfl
  · split <;> rfl

theorem comes_comment (s : Scan) (h : '\n' ∉ text) (behind : List Char) :
    s.Comes .comment index text behind s .comment := by
  induction text generalizing index with
  | nil => exact .nil s .comment behind
  | cons c cs ih =>
    rw [List.mem_cons, not_or] at h
    have hc := comes_commentChar s index c (cs ++ behind)
    rw [if_neg (Ne.symm h.1)] at hc
    exact hc.cons (ih h.2)

/-- A line comment ends the word that is being read. -/
theorem comes_slashes (s : Scan) (behind : List Char) :
    s.Comes .code index ['/', '/'] behind { s with word := [] } .comment := by
  intro tail _
  rw [List.cons_append, List.cons_append, Scan.run]
  rfl

/-- Words are forgotten in front of a string. -/
theorem comes_quote (s : Scan) (behind : List Char) :
    s.Comes .code index ['"'] behind s.forgetWords (.string false) := by
  intro tail _
  rw [List.singleton_append, Scan.run.eq_5, if_pos rfl]
  · rfl
  · intro cs hc
    cases hc

theorem comes_inside (s : Scan) (h : IsInside text) (behind : List Char) :
    s.Comes (.string false) index (text ++ ['"']) behind s .code := by
  induction h generalizing index with
  | nil => exact comes_stringChar s index false '"' behind
  | @plain c cs quote escape line others ih =>
    have hc := comes_stringChar s index false c (cs ++ ['"'] ++ behind)
    rw [if_neg (by simp [escape]), if_neg (by simp [quote, line])] at hc
    exact hc.cons ih
  | @escaped c cs line others ih =>
    have hescape := comes_stringChar s index false '\\' (c :: (cs ++ ['"']) ++ behind)
    have hc := comes_stringChar s (index + 1) true c (cs ++ ['"'] ++ behind)
    rw [if_neg (by simp), if_neg (by simp [line])] at hc
    exact hescape.cons (hc.cons ih)

theorem comes_quoted (s : Scan) (h : IsInside text) (behind : List Char) :
    s.Comes .code index ('"' :: (text ++ ['"'])) behind s.forgetWords .code :=
  (comes_quote s _).cons (comes_inside s.forgetWords h behind)

/-- The end of a line ends strings, comments and words. -/
theorem exists_comes_newline (s : Scan) (m : ScanMode) (index : Nat) (behind : List Char)
    (hmode : s.word = [] ∨ m = .code) :
    ∃ s', Scan.stack s' = s.stack ∧ s'.word = [] ∧ s.Comes m index ['\n'] behind s' .code := by
  cases m with
  | code => exact ⟨s.readChar '\n', rfl, rfl, comes_char s (by decide) nofun⟩
  | comment => exact ⟨s, rfl, hmode.resolve_right nofun, comes_commentChar s index '\n' behind⟩
  | string escaped =>
    have h := comes_stringChar s index escaped '\n' behind
    rw [if_neg (by simp), if_pos (.inr rfl)] at h
    exact ⟨s, rfl, hmode.resolve_right nofun, h⟩

/-! ### In comments of the language that are code to the scan -/

/-- No block is opened or closed in the text, and behind it a word is being read only in code. -/
def Keeps (s : Scan) (m : ScanMode) (index : Nat) (text behind : List Char) : Prop :=
  ∃ s' m', s'.stack = s.stack ∧ (m' = .code ∨ s'.word = []) ∧ s.Comes m index text behind s' m'

theorem Comes.keeps (hcomes : s.Comes m index text (rest ++ behind) s₁ m₁)
    (hstack : s₁.stack = s.stack) (h : s₁.Keeps m₁ (index + text.length) rest behind) :
    s.Keeps m index (text ++ rest) behind := by
  obtain ⟨s', m', hs, hm, hrest⟩ := h
  exact ⟨s', m', hs.trans hstack, hm, hcomes.append hrest⟩

/-- Whatever a text without braces holds: it may begin strings and line comments, and these end
with its line. -/
theorem keeps_of_unbraced (s : Scan) (m : ScanMode) (index : Nat)
    (h : ∀ c ∈ text, c ≠ '\x7b' ∧ c ≠ '\x7d') (hline : EndsLine behind)
    (hmode : m = .code ∨ s.word = []) : s.Keeps m index text behind := by
  fun_induction Scan.run s m index text with
  | case1 s m index => exact ⟨s, m, rfl, hmode, .nil s m behind⟩
  | case2 s index c cs ih =>
    have hword : s.word = [] := hmode.resolve_left nofun
    exact (comes_commentChar s index c (cs ++ behind)).keeps rfl
      (ih (List.forall_mem_cons.1 h).2 (.inr hword))
  | case3 s escaped index c cs hescape ih =>
    have hword : s.word = [] := hmode.resolve_left nofun
    have hc := comes_stringChar s index escaped c (cs ++ behind)
    rw [if_pos hescape] at hc
    exact hc.keeps rfl (ih (List.forall_mem_cons.1 h).2 (.inr hword))
  | case4 s escaped index c cs hescape hend ih =>
    have hc := comes_stringChar s index escaped c (cs ++ behind)
    rw [if_neg hescape, if_pos hend] at hc
    exact hc.keeps rfl (ih (List.forall_mem_cons.1 h).2 (.inl rfl))
  | case5 s escaped index c cs hescape hinside ih =>
    have hword : s.word = [] := hmode.resolve_left nofun
    have hc := comes_stringChar s index escaped c (cs ++ behind)
    rw [if_neg hescape, if_neg hinside] at hc
    exact hc.keeps rfl (ih (List.forall_mem_cons.1 h).2 (.inr hword))
  | case6 s index cs ih =>
    have hcs := (List.forall_mem_cons.1 (List.forall_mem_cons.1 h).2).2
    exact (comes_slashes s (cs ++ behind)).keeps rfl (ih hcs (.inr rfl))
  | case7 s index cs =>
    rename_i ih
    exact (comes_quote s (cs ++ behind)).keeps rfl (ih (List.forall_mem_cons.1 h).2 (.inr rfl))
  | case8 => exact absurd rfl (h _ List.mem_cons_self).1
  | case9 => exact absurd rfl (h _ List.mem_cons_self).2
  | case10 s index c cs hslash hquote hopen hclose ih =>
    have hbehind : c = '/' → (cs ++ behind).head? ≠ some '/' := by
      intro hc hhead
      cases cs with
      | nil =>
        rcases hline with rfl | hline
        · cases hhead
        · rw [List.nil_append, hline] at hhead
          cases hhead
      | cons d ds => exact hslash ds hc (by simpa using hhead)
    exact (comes_char s (by simp [hopen, hclose, hquote]) hbehind).keeps (readChar_stack s c)
      (ih (List.forall_mem_cons.1 h).2 (.inl rfl))

end Scan

/-! ## The characters of pieces -/

section

variable {kind : TokenKind} {text rest : List Char}

/-- Only braces and strings hold braces and quotes, and only strings hold slashes. -/
theorem Lexeme.comes (h : Lexeme kind text)
    (hkind : kind ∉ [TokenKind.openBrace, .closeBrace, .quoted]) (s : Scan) (index : Nat)
    (behind : List Char) : s.Comes .code index text behind (text.foldl Scan.readChar s) .code := by
  have hplain : ∀ d ∈ ['\x7b', '\x7d', '"', '/'], d ∉ text := by
    have hchars (h : ∀ c ∈ text, c.isAlphanum = true ∨ c ∈ ['_', '-', '.', '#']) :
        ∀ d ∈ ['\x7b', '\x7d', '"', '/'], d ∉ text := by
      intro d hd hmem
      have hchar := h d hmem
      simp only [List.mem_cons, List.not_mem_nil, or_false] at hd
      rcases hd with rfl | rfl | rfl | rfl <;> exact absurd hchar (by decide)
    cases h with
    | openBrace | closeBrace | quoted => exact absurd hkind (by decide)
    | openParen | closeParen | comma | dot | equals | newline => simp
    | ident first others => exact hchars ((Lexeme.ident first others).chars (.inl rfl))
    | number h => exact hchars ((Lexeme.number h).chars (.inr (.inl rfl)))
    | negative h => exact hchars ((Lexeme.negative h).chars (.inr (.inl rfl)))
    | hex some h => exact hchars ((Lexeme.hex some h).chars (.inr (.inr rfl)))
  refine Scan.comes_code s ?_ (Scan.not_slashes (hplain '/' (by decide)) behind)
  exact fun c hc hmem => hplain c (List.mem_append_left ['/'] hmem) hc

theorem isAlphanumeric_of_isAlphanum {c : Char} (h : c.isAlphanum = true) :
    isAlphanumeric c = true := by
  have hlow : c.toNat < 128 := by
    rcases Bool.or_eq_true_iff.1 h with h | h
    · have hletter := toNat_of_isAlpha h
      omega
    · have hrange := toNat_of_isDigit h
      omega
  rw [isAlphanumeric, if_pos hlow, h]

theorem isWordChar_of_ident (h : Lexeme .ident text) : ∀ c ∈ text, isWordChar c = true := by
  have hword {c : Char} (h : c.isAlphanum = true ∨ c = '_' ∨ c = '-') : isWordChar c = true := by
    rcases h with h | rfl | rfl
    · simp [isWordChar, isAlphanumeric_of_isAlphanum h]
    · rfl
    · rfl
  cases h with
  | @ident c cs first others =>
    refine List.forall_mem_cons.2 ⟨hword ?_, fun d hd => hword (others d hd)⟩
    rcases first with first | rfl
    · exact .inl (by rw [Char.isAlphanum, first, Bool.true_or])
    · exact .inr (.inl rfl)

/-- No other token begins with the end of a line. -/
theorem Lexeme.head?_ne (h : Lexeme kind text) (hkind : kind ≠ .newline) :
    text.head? ≠ some '\n' := by
  intro hhead
  have hmem := List.mem_of_head? hhead
  cases h with
  | newline => exact hkind rfl
  | ident first others => exact (Lexeme.ident first others).line (.inl rfl) hmem
  | number h => exact (Lexeme.number h).line (.inr (.inl rfl)) hmem
  | negative | quoted | hex => cases hhead
  | openBrace | closeBrace | openParen | closeParen | comma | dot | equals => cases hhead

/-- No blank and no comment begins with the end of a line. -/
theorem Skipped.head?_ne (h : Skipped text rest) : text.head? ≠ some '\n' := by
  cases h with
  | blanks rest some h =>
    intro hhead
    have hmem := List.mem_of_head? hhead
    simpa using h _ hmem
  | slashes | hash | block => simp

/-- Behind a line, no brace opens a block. -/
theorem nextKind?_ne_openBrace {ps : List Piece} (h : Fitted ps) (hline : EndsLine (textOf ps)) :
    nextKind? ps ≠ some .openBrace := by
  cases h with
  | nil => simp [nextKind?]
  | @cons p ps head nonempty others =>
    have hhead : p.text.head? = some '\n' := by
      obtain ⟨c, cs, htext⟩ := List.exists_cons_of_ne_nil nonempty
      rw [textOf_cons, htext] at hline
      rw [htext]
      exact hline.resolve_left (List.cons_ne_nil _ _)
    intro hnext
    rw [nextKind?, List.findSome?_cons] at hnext
    generalize hkind : p.kind = kind? at hnext head
    cases kind? with
    | none =>
      cases head with
      | matched h => cases h with
        | skipped h => exact h.head?_ne hhead
    | some kind =>
      obtain rfl : kind = .openBrace := by simpa using hnext
      generalize p.text = text at head hhead
      cases head with
      | matched h => cases h with
        | lexeme _ h =>
          cases h
          simp at hhead

end

/-! ## The scan and the outline -/

/-- The scan has opened the blocks of the outline.  Where nothing was heard it is reading no word,
and a brace right behind a name would open a block of that name.  At the end of a line, and only
there, it may be reading the words of a comment, or be in a string or a comment. -/
structure Scan.Agrees (s : Scan) (m : ScanMode) (o : Outline) (behind : List Piece) : Prop where
  names : s.stack.map OpenBlock.name = o.names
  mode : EndsLine (textOf behind) ∧ s.word = [] ∨ m = .code
  fresh : o.heard = .nothing → EndsLine (textOf behind) ∨ s.word = []
  word : ∀ w, o.heard = .name w → nextKind? behind = some .openBrace → s.complete = w

/-- A piece that begins with anything else is in front of no line end. -/
theorem not_endsLine {p : Piece} (hp : p.text ≠ []) (hhead : p.text.head? ≠ some '\n')
    (behind : List Piece) : ¬ EndsLine (textOf (p :: behind)) := by
  obtain ⟨c, cs, htext⟩ := List.exists_cons_of_ne_nil hp
  rw [textOf_cons, htext]
  rw [htext] at hhead
  exact fun hline => hhead (hline.resolve_left (List.cons_ne_nil _ _))

namespace Scan.Agrees

variable {s : Scan} {m : ScanMode} {o o' : Outline} {p : Piece} {behind : List Piece}

/-- **Over blanks and comments the scan agrees with the same outline.** -/
theorem skip (h : s.Agrees m o (p :: behind)) (index : Nat) (hfitted : Fitted behind) (hp : p.text ≠ [])
    (hkind : p.kind = none) (hskip : Skipped p.text (textOf behind))
    (hpass : passes p.text behind = true) :
    ∃ s' m', Agrees s' m' o behind ∧ s.Comes m index p.text (textOf behind) s' m' := by
  have hline := not_endsLine hp hskip.head?_ne behind
  obtain rfl : m = .code := h.mode.resolve_left fun hmode => hline hmode.1
  have hfresh (hheard : o.heard = .nothing) : s.word = [] := (h.fresh hheard).resolve_left hline
  have hnext : nextKind? (p :: behind) = nextKind? behind := by
    rw [nextKind?, nextKind?, List.findSome?_cons, hkind]
  have hword := h.word
  rw [hnext] at hword
  obtain ⟨kind?, text⟩ := p
  dsimp only at hp hkind hskip hpass ⊢
  cases hskip with
  | blanks _ hsome hgaps =>
    have hgaps : ∀ c ∈ text, isGap c = true := fun c hc => isGap_iff.2 (hgaps c hc)
    obtain ⟨hcomplete, hempty⟩ := s.foldl_readChar_gaps hgaps
    refine ⟨text.foldl readChar s, .code, ⟨?_, .inr rfl, ?_, ?_⟩, comes_gaps s hgaps _⟩
    · rw [foldl_readChar_stack, h.names]
    · exact fun hheard => .inr (hempty (hfresh hheard))
    · exact fun w hheard hbrace => by rw [hcomplete, hword w hheard hbrace]
  | @slashes comment _ line stop =>
    refine ⟨{ s with word := [] }, .comment, ⟨h.names, .inl ⟨stop, rfl⟩, fun _ => .inl stop, ?_⟩,
      (comes_slashes s _).append (comes_comment _ line _)⟩
    exact fun w _ hbrace => absurd hbrace (nextKind?_ne_openBrace hfitted stop)
  | @hash c comment _ blank line stop =>
    have hunbraced : ∀ d ∈ '#' :: c :: comment, d ≠ '\x7b' ∧ d ≠ '\x7d' := by
      simpa [passes] using hpass
    obtain ⟨s', m', hstack, hmode, hcomes⟩ := keeps_of_unbraced s .code index hunbraced stop (.inl rfl)
    refine ⟨s', m', ⟨?_, ?_, fun _ => .inl stop, ?_⟩, hcomes⟩
    · rw [hstack, h.names]
    · exact hmode.symm.imp_left fun hword => ⟨stop, hword⟩
    · exact fun w _ hbrace => absurd hbrace (nextKind?_ne_openBrace hfitted stop)
  | @block comment _ first =>
    simp only [passes, Bool.and_eq_true] at hpass
    obtain ⟨⟨hplain, hslashes⟩, hbrace⟩ := hpass
    have hslashes : ¬ ['/', '/'] <:+: '/' :: '*' :: (comment ++ ['*', '/']) ++
        (textOf behind).take 1 := by
      rw [List.cons_append, List.cons_append, List.infix_cons_iff, List.infix_cons_iff]
      simpa using hslashes
    have hchars : ∀ c ∈ '/' :: '*' :: (comment ++ ['*', '/']), c ∉ ['\x7b', '\x7d', '"'] := by
      have hcomment : ∀ c ∈ comment, c ∉ ['\x7b', '\x7d', '"'] := by
        simpa [and_assoc, or_imp, forall_and] using hplain
      simp only [List.forall_mem_cons, List.forall_mem_append]
      exact ⟨by decide, by decide, hcomment, by decide, by decide, by simp⟩
    refine ⟨_, .code, ⟨?_, .inr rfl, fun _ => .inr ?_, fun w _ hnext => ?_⟩,
      comes_code s hchars hslashes⟩
    · rw [foldl_readChar_stack, h.names]
    · -- the sign that closes the comment ends all words in it
      rw [show '/' :: '*' :: (comment ++ ['*', '/']) = '/' :: '*' :: comment ++ ['*'] ++ ['/'] by
        simp, List.foldl_append]
      rfl
    · rw [hnext] at hbrace
      exact absurd hbrace (by decide)

/-- At the end of a line the scan leaves strings and comments. -/
theorem newline (h : s.Agrees m o (p :: behind)) (index : Nat) (htext : Lexeme .newline p.text)
    {heard : Heard} (hheard : ∀ w, heard ≠ .name w) :
    ∃ s' m', Agrees s' m' ⟨o.names, heard⟩ behind ∧
      s.Comes m index p.text (textOf behind) s' m' := by
  generalize p.text = text at htext
  cases htext
  obtain ⟨s', hstack, hword, hcomes⟩ :=
    exists_comes_newline s m index (textOf behind) (h.mode.imp_left And.right)
  refine ⟨s', .code, ⟨?_, .inr rfl, fun _ => .inr hword, ?_⟩, hcomes⟩
  · rw [hstack, h.names]
  · exact fun w hname => absurd hname (hheard w)

/-- **Over a token the scan changes as the outline does.** -/
theorem token {t : Token} (h : s.Agrees m o (p :: behind)) (index : Nat)
    (hkind : p.kind = some t.kind) (htext : t.text.toList = p.text)
    (hlexeme : Lexeme t.kind p.text) (hstep : o.Step t o') :
    ∃ s' m', Agrees s' m' o' behind ∧ s.Comes m index p.text (textOf behind) s' m' := by
  have hnext : nextKind? (p :: behind) = some t.kind := by
    rw [nextKind?, List.findSome?_cons, hkind]
  have hline (hhead : p.text.head? ≠ some '\n') : ¬ EndsLine (textOf (p :: behind)) :=
    not_endsLine hlexeme.ne_nil hhead behind
  have hcode (hhead : p.text.head? ≠ some '\n') : m = .code :=
    h.mode.resolve_left fun hmode => hline hhead hmode.1
  cases hstep with
  | @line names heard t kind =>
    rw [kind] at hlexeme
    exact h.newline index hlexeme nofun
  | @name names t kind =>
    rw [kind] at hlexeme
    have hhead := hlexeme.head?_ne (by decide)
    obtain rfl := hcode hhead
    have hword : s.word = [] := (h.fresh rfl).resolve_left (hline hhead)
    have hcomes := hlexeme.comes (by decide) s index (textOf behind)
    rw [foldl_readChar_word s (isWordChar_of_ident hlexeme), hword, List.nil_append] at hcomes
    refine ⟨⟨s.stack, s.lastWord, p.text⟩, .code, ⟨h.names, .inr rfl, nofun, ?_⟩, hcomes⟩
    rintro w ⟨⟩ -
    rw [htext]
    exact if_neg (by simpa using hlexeme.ne_nil)
  | @opening names word t kind =>
    rw [kind] at hlexeme hnext
    have hcomplete := h.word word rfl hnext
    generalize p.text = text at hlexeme hcode
    cases hlexeme
    obtain rfl := hcode (by decide)
    refine ⟨s.openBlock (index + 1), .code, ⟨?_, .inr rfl, fun _ => .inr rfl, nofun⟩,
      comes_openBrace s index _⟩
    exact congr (congrArg List.cons hcomplete) h.names
  | @closing names word heard t kind =>
    rw [kind] at hlexeme
    generalize p.text = text at hlexeme hcode
    cases hlexeme
    obtain rfl := hcode (by decide)
    refine ⟨s.closeBlock, .code, ⟨?_, .inr rfl, fun _ => .inr rfl, nofun⟩,
      comes_closeBrace s index _⟩
    have hnames := congrArg List.tail h.names
    rwa [← List.map_tail] at hnames
  | @more names heard t kind =>
    by_cases hquoted : t.kind = .quoted
    · rw [hquoted] at hlexeme
      generalize p.text = text at hlexeme hcode
      cases hlexeme with
      | quoted hinside =>
        obtain rfl := hcode (by simp)
        exact ⟨s.forgetWords, .code, ⟨h.names, .inr rfl, nofun, nofun⟩,
          comes_quoted s hinside _⟩
    · by_cases hnewline : t.kind = .newline
      · rw [hnewline] at hlexeme
        exact h.newline index hlexeme nofun
      · obtain rfl := hcode (hlexeme.head?_ne hnewline)
        have hplain : t.kind ∉ [TokenKind.openBrace, .closeBrace, .quoted] := by
          simp only [Grammar.InValue, List.mem_cons, List.not_mem_nil, or_false, not_or] at kind ⊢
          exact ⟨kind.1, kind.2.1, hquoted⟩
        refine ⟨_, .code, ⟨?_, .inr rfl, nofun, nofun⟩, hlexeme.comes hplain s index _⟩
        rw [foldl_readChar_stack, h.names]

end Scan.Agrees

/-! ## The scan over a document -/

section

variable {s : Scan} {m : ScanMode} {o o' : Outline} {ps : List Piece} {offset : Nat}

theorem le_of_mem_locate {t : Token} (h : t ∈ locate offset ps) : offset ≤ t.span.stop := by
  induction ps generalizing offset with
  | nil => cases h
  | cons p ps ih =>
    rw [locate] at h
    split at h
    · rcases List.mem_cons.1 h with rfl | h
      · exact Nat.le_add_right _ _
      · exact Nat.le_trans (Nat.le_add_right _ _) (ih h)
    · exact Nat.le_trans (Nat.le_add_right _ _) (ih h)

/-- No token ends before the first piece does. -/
theorem tokensUpTo_locate_eq_nil {p : Piece} {n : Nat} (h : n < byteLength p.text) :
    tokensUpTo (offset + n) (locate offset (p :: ps)) = [] := by
  refine tokensUpTo_eq_nil fun t ht => ?_
  have hle : offset + byteLength p.text ≤ t.span.stop := by
    rw [locate] at ht
    split at ht
    · rcases List.mem_cons.1 ht with rfl | ht
      · exact Nat.le_refl _
      · exact le_of_mem_locate ht
    · exact le_of_mem_locate ht
  omega

namespace Scan.Agrees

/-- **Over one piece the scan changes as the outline does over its token**, if it has one. -/
theorem piece {p : Piece} {limit : Nat} (h : s.Agrees m o (p :: ps)) (index : Nat)
    (head : Fits p.kind p.text (textOf ps)) (nonempty : p.text ≠ []) (hfitted : Fitted ps)
    (hpass : p.kind.isSome = true ∨ passes p.text ps = true)
    (hlimit : offset + byteLength p.text ≤ limit)
    (hrun : o.Run (tokensUpTo limit (locate offset (p :: ps))) o') :
    ∃ s' m' o₁, Scan.Agrees s' m' o₁ ps ∧ s.Comes m index p.text (textOf ps) s' m' ∧
      o₁.Run (tokensUpTo limit (locate (offset + byteLength p.text) ps)) o' := by
  cases hkind : p.kind with
  | none =>
    rw [hkind] at head hpass
    rw [locate, hkind] at hrun
    cases head with
    | matched head =>
      cases head with
      | skipped hskip =>
        obtain ⟨s', m', hagrees, hcomes⟩ :=
          h.skip index hfitted nonempty hkind hskip (by simpa using hpass)
        exact ⟨s', m', o, hagrees, hcomes, hrun⟩
  | some kind =>
    rw [hkind] at head
    rw [locate, hkind] at hrun
    dsimp only at hrun
    rw [tokensUpTo_cons_of_le hlimit] at hrun
    cases hrun with
    | @cons _ o₁ _ _ _ step run =>
      have hlexeme : Lexeme kind p.text := by
        cases head with
        | matched head => cases head with | lexeme _ h => exact h
        | unmatched => exact absurd rfl step.valid
      obtain ⟨s', m', hagrees, hcomes⟩ := h.token index hkind String.toList_ofList hlexeme step
      exact ⟨s', m', o₁, hagrees, hcomes, run⟩

/-- In front of a piece, or among blanks, the scan has opened the blocks of the outline. -/
theorem names_within {p : Piece} {before after : List Char} (h : s.Agrees m o (p :: ps))
    (nonempty : p.text ≠ []) (htext : p.text ++ textOf ps = before ++ after)
    (hinside : byteLength before < byteLength p.text)
    (hcut : (decide (0 < byteLength before) && !p.text.all isGap) = false) (index : Nat) :
    (s.run m index before).stack.map OpenBlock.name = o.names := by
  cases before with
  | nil => exact h.names
  | cons c cs =>
    have hpos := byteLength_pos (List.cons_ne_nil c cs)
    rw [decide_eq_true hpos, Bool.true_and] at hcut
    have hgaps : ∀ d ∈ p.text, isGap d = true := by simpa using hcut
    obtain ⟨more, hmore, -⟩ := exists_append_of_byteLength_le htext.symm (Nat.le_of_lt hinside)
    have hhead : p.text.head? ≠ some '\n' := fun hhead =>
      absurd (hgaps _ (List.mem_of_head? hhead)) (by decide)
    have hline := not_endsLine nonempty hhead ps
    obtain rfl : m = .code := h.mode.resolve_left fun hmode => hline hmode.1
    have hcomes : s.Comes .code index (c :: cs) [] ((c :: cs).foldl readChar s) .code :=
      s.comes_gaps (fun d hd => hgaps d (hmore ▸ List.mem_append_left more hd)) []
    have hend := hcomes [] List.nil_prefix
    rw [List.append_nil] at hend
    rw [hend, Scan.run, foldl_readChar_stack, h.names]

/-- **Up to an offset between the pieces, the scan opens and closes the blocks that their tokens
do.**  The induction is on the pieces. -/
theorem names_run (hfitted : Fitted ps) (hpasses : passesAll ps = true)
    {before after : List Char} (htext : textOf ps = before ++ after)
    (hcut : strictlyInside ps (byteLength before) = false) (h : s.Agrees m o ps)
    (hrun : o.Run (tokensUpTo (offset + byteLength before) (locate offset ps)) o') (index : Nat) :
    (s.run m index before).stack.map OpenBlock.name = o'.names := by
  induction hfitted generalizing before offset s m o index with
  | nil =>
    obtain ⟨rfl, rfl⟩ := List.append_eq_nil_iff.1 htext.symm
    cases hrun
    exact h.names
  | @cons p ps head nonempty others ih =>
    rw [passesAll, Bool.and_eq_true, Bool.or_eq_true] at hpasses
    obtain ⟨hpass, hpasses⟩ := hpasses
    rw [textOf_cons] at htext
    rw [strictlyInside] at hcut
    split at hcut
    · rename_i hinside
      rw [tokensUpTo_locate_eq_nil hinside] at hrun
      cases hrun
      exact h.names_within nonempty htext hinside hcut index
    · -- behind the piece, what is left of the text is in front of the others
      rename_i hbehind
      obtain ⟨before, rfl, hrest⟩ :=
        exists_append_of_byteLength_le htext (Nat.le_of_not_lt hbehind)
      rw [byteLength_append] at hcut hrun
      rw [Nat.add_sub_cancel_left] at hcut
      rw [← Nat.add_assoc] at hrun
      obtain ⟨s', m', o₁, hagrees, hcomes, hrun⟩ :=
        h.piece index head nonempty others hpass (Nat.le_add_right _ _) hrun
      rw [hcomes before ⟨after, hrest.symm⟩]
      exact ih hpasses hrest hcut hagrees hrun _

end Scan.Agrees

end

/-- **In a document that follows the grammar, the blocks that are open in front of an offset are
those around it**, the outermost first, if the offset is inside of no token and no comment, and
the scan passes over the comments. -/
theorem openBlocks_eq_blocksAround {source : String} {before after : List Char}
    (hflawless : (Body.read source).flaws = [])
    (hpasses : passesAll (pieces source.toList) = true)
    (hsource : source.toList = before ++ after)
    (hcut : strictlyInside (pieces source.toList) (byteLength before) = false) :
    ((openBlocks before).map OpenBlock.name).reverse =
      (blocksAround (tokenize source) (byteLength before) (Body.read source).items).map
        fun b => b.kind.name.toList := by
  obtain ⟨stop, hstop, hbody⟩ := Grammar.isDocument_of_flawless hflawless
  obtain ⟨read, hread, heard, hrun⟩ := hbody.outlined (spaced_tokenize source) (byteLength before)
    [] rfl [] .nothing (.inl rfl)
  obtain ⟨rfl, -⟩ := List.append_inj' hread rfl
  have hstart : Scan.Agrees ⟨[], [], []⟩ .code ⟨[], .nothing⟩ (pieces source.toList) :=
    ⟨rfl, .inr rfl, fun _ => .inr rfl, nofun⟩
  have htext : textOf (pieces source.toList) = before ++ after := by
    rw [textOf, flatten_pieces, hsource]
  rw [← Nat.zero_add (byteLength before)] at hrun
  have hnames := hstart.names_run (fitted_pieces _) hpasses htext hcut hrun 0
  rw [Nat.zero_add, List.append_nil, namesOutward] at hnames
  rw [openBlocks, hnames, List.reverse_reverse]

/-- The head of a document with braces in a string and in a comment, up to a place in two blocks. -/
def bracedHead : String :=
  "// \x7b\npalette \x7b\n  name = \"\x7b \\\" \x7d\" # a note\n  pine \x7b /* deep \\ */\n  "

/-- The rest of that document. -/
def bracedTail : String := "deep = #224f62\n  \x7d\n\x7d\n"

theorem openBlocks_eq_blocksAround_braced :
    ((openBlocks bracedHead.toList).map OpenBlock.name).reverse =
        ["palette".toList, "pine".toList] ∧
      (blocksAround (tokenize (bracedHead ++ bracedTail)) (byteLength bracedHead.toList)
        (Body.read (bracedHead ++ bracedTail)).items).map (fun b => b.kind.name.toList) =
        ["palette".toList, "pine".toList] := by
  have h : (Body.read (bracedHead ++ bracedTail)).flaws = [] ∧
      passesAll (pieces (bracedHead ++ bracedTail).toList) = true ∧
      strictlyInside (pieces (bracedHead ++ bracedTail).toList)
        (byteLength bracedHead.toList) = false ∧
      ((openBlocks bracedHead.toList).map OpenBlock.name).reverse =
        ["palette".toList, "pine".toList] := by
    decide +kernel
  obtain ⟨hflawless, hpasses, hcut, hopen⟩ := h
  exact ⟨hopen, (openBlocks_eq_blocksAround hflawless hpasses String.toList_append hcut).symm.trans
    hopen⟩

/-- A comment with a brace, which is code to the scan. -/
def hashedSource : String := "palette \x7b\n\x7d\nansi \x7b\n  # \x7b\n\x7d\n"

/-- A comment in front of a brace, behind which the scan forgets the name. -/
def partedSource : String := "ansi /* first */ \x7b\n"

/-- **The scan takes comments for code**, unless they begin with two slashes: it leaves a block open
that is closed, or opens one without its name. -/
theorem openBlocks_misread :
    (Body.read hashedSource).flaws = [] ∧
      strictlyInside (pieces hashedSource.toList) (byteLength hashedSource.toList) = false ∧
      (openBlocks hashedSource.toList).map OpenBlock.name = ["ansi".toList] ∧
      blocksAround (tokenize hashedSource) (byteLength hashedSource.toList)
        (Body.read hashedSource).items = [] ∧
      (Body.read (partedSource ++ "\x7d")).flaws = [] ∧
      strictlyInside (pieces (partedSource ++ "\x7d").toList)
        (byteLength partedSource.toList) = false ∧
      (openBlocks partedSource.toList).map OpenBlock.name = [[]] ∧
      (blocksAround (tokenize (partedSource ++ "\x7d")) (byteLength partedSource.toList)
        (Body.read (partedSource ++ "\x7d")).items).map (fun b => b.kind.name) = ["ansi"] := by
  decide +kernel

end ColorTheme
