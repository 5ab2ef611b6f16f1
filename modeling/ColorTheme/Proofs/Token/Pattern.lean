import ColorTheme.Token.Lexer
import Mathlib.Data.List.Infix
import Mathlib.Data.List.TakeWhile

/-!
# The patterns of tokens

* `Lexeme` : the texts each kind of token stands for, written as patterns.  `Skipped` are the
  blanks and comments between tokens, `Unmatched` the texts that no pattern takes.
* `fits_measure` : what is cut off a text is a lexeme, or is skipped, or is unmatched.
* `Begins.covered` : no lexeme, blank or comment at the same place goes on further, and nothing
  unmatched is cut off where there is one.
-/

set_option autoImplicit false

namespace ColorTheme

/-- `[0-9]+` -/
def IsDigits (cs : List Char) : Prop := cs ≠ [] ∧ ∀ c ∈ cs, c.isDigit = true

/-- `[0-9]+(\.[0-9]+)?` -/
inductive IsDecimal : List Char → Prop
  | whole {digits : List Char} (h : IsDigits digits) : IsDecimal digits
  | fraction {digits more : List Char} (h : IsDigits digits) (hmore : IsDigits more) :
      IsDecimal (digits ++ '.' :: more)

/-- `([^"\\\n]|\\.)*` -/
inductive IsInside : List Char → Prop
  | nil : IsInside []
  | plain {c : Char} {cs : List Char} (quote : c ≠ '"') (escape : c ≠ '\\') (line : c ≠ '\n')
      (others : IsInside cs) : IsInside (c :: cs)
  | escaped {c : Char} {cs : List Char} (line : c ≠ '\n') (others : IsInside cs) :
      IsInside ('\\' :: c :: cs)

/-- Nothing in the text closes a block comment. -/
def Uncommented (cs : List Char) : Prop := ¬ ['*', '/'] <:+: cs

/-- The pattern of each kind of token. -/
inductive Lexeme : TokenKind → List Char → Prop
  | openBrace : Lexeme .openBrace ['{']
  | closeBrace : Lexeme .closeBrace ['}']
  | openParen : Lexeme .openParen ['(']
  | closeParen : Lexeme .closeParen [')']
  | comma : Lexeme .comma [',']
  | dot : Lexeme .dot ['.']
  | equals : Lexeme .equals ['=']
  | newline : Lexeme .newline ['\n']
  | ident {c : Char} {cs : List Char} (first : c.isAlpha = true ∨ c = '_')
      (others : ∀ d ∈ cs, d.isAlphanum = true ∨ d = '_' ∨ d = '-') : Lexeme .ident (c :: cs)
  | number {cs : List Char} (h : IsDecimal cs) : Lexeme .number cs
  | negative {cs : List Char} (h : IsDecimal cs) : Lexeme .number ('-' :: cs)
  | quoted {inside : List Char} (h : IsInside inside) : Lexeme .quoted ('"' :: (inside ++ ['"']))
  | hex {digits : List Char} (some : digits ≠ []) (h : ∀ d ∈ digits, d.isAlphanum = true) :
      Lexeme .hex ('#' :: digits)

/-- A line comment runs up to the end of its line. -/
def EndsLine (rest : List Char) : Prop := rest = [] ∨ rest.head? = some '\n'

/-- What is left out between tokens, in front of `rest`.  A block comment is closed where it is
closed first. -/
inductive Skipped : List Char → List Char → Prop
  | blanks {run : List Char} (rest : List Char) (some : run ≠ [])
      (h : ∀ c ∈ run, c = ' ' ∨ c = '\t' ∨ c = '\r' ∨ c = '\x0c') : Skipped run rest
  | slashes {comment rest : List Char} (line : '\n' ∉ comment) (stop : EndsLine rest) :
      Skipped ('/' :: '/' :: comment) rest
  | hash {c : Char} {comment rest : List Char} (blank : c = ' ' ∨ c = '\t')
      (line : '\n' ∉ comment) (stop : EndsLine rest) : Skipped ('#' :: c :: comment) rest
  | block {comment : List Char} (rest : List Char) (first : Uncommented (comment ++ ['*'])) :
      Skipped ('/' :: '*' :: (comment ++ ['*', '/'])) rest

/-- What no pattern takes: a single character, a string without its closing quote, or a block
comment that is never closed. -/
inductive Unmatched : List Char → Prop
  | lone (c : Char) : Unmatched [c]
  | openQuote {inside : List Char} (h : IsInside inside) : Unmatched ('"' :: inside)
  | openComment {comment : List Char} (h : Uncommented comment) :
      Unmatched ('/' :: '*' :: comment)

/-- A lexeme, or what is skipped, at the head of a text that goes on with `rest`. -/
inductive Begins : Option TokenKind → List Char → List Char → Prop
  | lexeme {kind : TokenKind} {text : List Char} (rest : List Char) (h : Lexeme kind text) :
      Begins (some kind) text rest
  | skipped {text rest : List Char} (h : Skipped text rest) : Begins none text rest

/-- What a piece can be in front of `rest`. -/
inductive Fits : Option TokenKind → List Char → List Char → Prop
  | matched {kind : Option TokenKind} {text rest : List Char} (h : Begins kind text rest) :
      Fits kind text rest
  | unmatched {text : List Char} (rest : List Char) (h : Unmatched text) :
      Fits (some .invalid) text rest

/-! ## Runs -/

theorem take_runLength (p : Char → Bool) (cs : List Char) :
    cs.take (runLength p cs) = cs.takeWhile p :=
  (List.prefix_iff_eq_take.1 (List.takeWhile_prefix p)).symm

theorem drop_runLength (p : Char → Bool) (cs : List Char) :
    cs.drop (runLength p cs) = cs.dropWhile p :=
  calc cs.drop (runLength p cs)
    _ = (cs.takeWhile p ++ cs.dropWhile p).drop (runLength p cs) := by
      rw [List.takeWhile_append_dropWhile]
    _ = cs.dropWhile p := List.drop_left

theorem length_le_runLength {p : Char → Bool} {run : List Char} (rest : List Char)
    (h : ∀ c ∈ run, p c = true) :
    run.length ≤ runLength p (run ++ rest) := by
  unfold runLength
  rw [List.takeWhile_append_of_pos h, List.length_append]
  exact Nat.le_add_right _ _

theorem isGap_iff {c : Char} : isGap c = true ↔ c = ' ' ∨ c = '\t' ∨ c = '\r' ∨ c = '\x0c' := by
  simp [isGap, or_assoc]

theorem isGap_eq_false {c : Char} (h : c.isDigit = true ∨ isNameStart c = true) :
    isGap c = false := by
  rw [Bool.eq_false_iff]
  intro hgap
  rcases isGap_iff.1 hgap with rfl | rfl | rfl | rfl <;> revert h <;> decide

/-- The letters of identifiers. -/
theorem toNat_of_isAlpha {c : Char} (h : c.isAlpha = true) :
    65 ≤ c.toNat ∧ c.toNat ≤ 90 ∨ 97 ≤ c.toNat ∧ c.toNat ≤ 122 := by
  have hcase : c.isUpper = true ∨ c.isLower = true := Bool.or_eq_true_iff.1 h
  rcases hcase with h | h
  · have hrange : 'A'.val ≤ c.val ∧ c.val ≤ 'Z'.val := of_decide_eq_true h
    exact .inl ⟨UInt32.le_iff_toNat_le.1 hrange.1, UInt32.le_iff_toNat_le.1 hrange.2⟩
  · obtain ⟨hlow, hhigh⟩ := Bool.and_eq_true_iff.1 h
    exact .inr ⟨UInt32.le_iff_toNat_le.1 (of_decide_eq_true hlow),
      UInt32.le_iff_toNat_le.1 (of_decide_eq_true hhigh)⟩

theorem toNat_of_isDigit {c : Char} (h : c.isDigit = true) : 48 ≤ c.toNat ∧ c.toNat ≤ 57 := by
  obtain ⟨hlow, hhigh⟩ := Bool.and_eq_true_iff.1 h
  exact ⟨UInt32.le_iff_toNat_le.1 (of_decide_eq_true hlow),
    UInt32.le_iff_toNat_le.1 (of_decide_eq_true hhigh)⟩

theorem isDigit_eq_false {c : Char} (h : isNameStart c = true) : c.isDigit = false := by
  have h : c.isAlpha = true ∨ c = '_' := by simpa [isNameStart] using h
  rcases h with h | rfl
  · rw [Bool.eq_false_iff]
    intro hdigit
    have hrange := toNat_of_isDigit hdigit
    have hletter := toNat_of_isAlpha h
    omega
  · decide

/-- A run of anything but line feeds has none. -/
theorem line_takeWhile (cs : List Char) : '\n' ∉ cs.takeWhile (· != '\n') := by
  intro h
  simpa using List.mem_takeWhile_imp h

/-- A run of anything but line feeds goes on to the end of the line. -/
theorem endsLine_dropWhile (cs : List Char) : EndsLine (cs.dropWhile (· != '\n')) := by
  cases h : cs.dropWhile (· != '\n') with
  | nil => exact .inl rfl
  | cons c rest =>
    have hc := List.head?_dropWhile_not (· != '\n') cs
    rw [h] at hc
    right
    simpa using hc

/-! ## Numbers -/

theorem isDecimal_take {c : Char} (cs : List Char) (hc : c.isDigit = true) :
    IsDecimal ((c :: cs).take (numberLength (c :: cs))) := by
  have hwhole : IsDigits ((c :: cs).takeWhile Char.isDigit) := by
    refine ⟨by simp [hc], fun d hd => List.mem_takeWhile_imp hd⟩
  unfold numberLength
  dsimp only
  split
  · rename_i d ds hrest
    rw [drop_runLength] at hrest
    split
    · rename_i hd
      have hmore : IsDigits (d :: ds.takeWhile Char.isDigit) :=
        ⟨List.cons_ne_nil _ _, List.forall_mem_cons.2 ⟨hd, fun e he => List.mem_takeWhile_imp he⟩⟩
      have htake :
          (c :: cs).take (runLength Char.isDigit (c :: cs) + 2 + runLength Char.isDigit ds) =
          (c :: cs).takeWhile Char.isDigit ++ '.' :: d :: ds.takeWhile Char.isDigit := by
        rw [Nat.add_assoc, List.take_add, take_runLength, drop_runLength, hrest, Nat.add_comm 2,
          List.take_succ_cons, List.take_succ_cons, take_runLength]
      rw [htake]
      exact .fraction hwhole hmore
    · rw [take_runLength]
      exact .whole hwhole
  · rw [take_runLength]
    exact .whole hwhole

theorem IsDecimal.exists_cons {cs : List Char} (h : IsDecimal cs) :
    ∃ d ds, cs = d :: ds ∧ d.isDigit = true := by
  cases h with
  | whole h =>
    obtain ⟨d, ds, rfl⟩ := List.exists_cons_of_ne_nil h.1
    exact ⟨d, ds, rfl, h.2 d List.mem_cons_self⟩
  | @fraction digits more h _ =>
    obtain ⟨d, ds, rfl⟩ := List.exists_cons_of_ne_nil h.1
    exact ⟨d, _, rfl, h.2 d List.mem_cons_self⟩

/-- No number at the head of a text is longer than the one that is read there. -/
theorem IsDecimal.length_le {text : List Char} (h : IsDecimal text) (rest : List Char) :
    text.length ≤ numberLength (text ++ rest) := by
  cases h with
  | whole h =>
    have hle := length_le_runLength rest h.2
    unfold numberLength
    dsimp only
    split
    · split <;> omega
    · exact hle
  | @fraction digits more h hmore =>
    obtain ⟨d, ds, rfl⟩ := List.exists_cons_of_ne_nil hmore.1
    have hd : d.isDigit = true := hmore.2 d List.mem_cons_self
    have htake : (digits ++ '.' :: d :: ds ++ rest).takeWhile Char.isDigit = digits := by
      rw [List.append_assoc, List.takeWhile_append_of_pos h.2]
      simp
    have hlength : runLength Char.isDigit (digits ++ '.' :: d :: ds ++ rest) = digits.length := by
      rw [runLength, htake]
    have hdrop : (digits ++ '.' :: d :: ds ++ rest).drop digits.length =
        '.' :: d :: (ds ++ rest) := by
      rw [List.append_assoc, List.drop_left]
      rfl
    have hds : ds.length ≤ runLength Char.isDigit (ds ++ rest) :=
      length_le_runLength rest fun e he => hmore.2 e (List.mem_cons_of_mem d he)
    unfold numberLength
    dsimp only
    rw [hlength, hdrop]
    simp only [if_pos hd, List.length_append, List.length_cons]
    omega

/-! ## Strings -/

/-- A string goes on to its closing quote, or to where it cannot go on. -/
theorem isInside_take_quotedLength (cs : List Char) :
    if (quotedLength cs).2 then
      ∃ inside, cs.take (quotedLength cs).1 = inside ++ ['"'] ∧ IsInside inside
    else IsInside (cs.take (quotedLength cs).1) := by
  fun_induction quotedLength cs with
  | case1 => exact ⟨[], rfl, .nil⟩
  | case2 => exact .nil
  | case3 => exact .nil
  | case4 => exact .nil
  | case5 c cs hc ih =>
    dsimp only
    split at ih
    · rename_i hclosed
      obtain ⟨inside, htake, hinside⟩ := ih
      rw [if_pos hclosed]
      exact ⟨'\\' :: c :: inside, by simp [htake], .escaped hc hinside⟩
    · rename_i hopen
      rw [if_neg hopen]
      exact .escaped hc ih
  | case6 c cs hquote hline hlast hstuck hescape ih =>
    have hc : c ≠ '\\' := by
      rintro rfl
      cases cs with
      | nil => exact hlast rfl rfl
      | cons d ds => exact hescape d ds rfl rfl
    dsimp only
    split at ih
    · rename_i hclosed
      obtain ⟨inside, htake, hinside⟩ := ih
      rw [if_pos hclosed]
      exact ⟨c :: inside, by simp [htake], .plain hquote hc hline hinside⟩
    · rename_i hopen
      rw [if_neg hopen]
      exact .plain hquote hc hline ih
  | case7 => exact .nil

/-- A string ends at its first quote that is not escaped. -/
theorem IsInside.quotedLength_eq {inside : List Char} (h : IsInside inside) (rest : List Char) :
    quotedLength (inside ++ '"' :: rest) = (inside.length + 1, true) := by
  induction h with
  | nil => rfl
  | @plain c cs quote escape line others ih =>
    rw [List.cons_append, quotedLength.eq_6 c _ quote line (fun h => absurd h escape)
      (fun _ h => absurd h escape) (fun _ _ h => absurd h escape), ih]
    rfl
  | @escaped c cs line others ih =>
    rw [List.cons_append, List.cons_append, quotedLength.eq_5 c _ line, ih]
    rfl

/-! ## Block comments -/

theorem uncommented_cons {c : Char} {cs : List Char} :
    Uncommented (c :: cs) ↔ (c = '*' → cs.head? ≠ some '/') ∧ Uncommented cs := by
  unfold Uncommented
  rw [List.infix_cons_iff, not_or]
  refine and_congr_left fun _ => ?_
  cases cs with
  | nil => simp
  | cons d ds => simp [List.cons_prefix_cons, eq_comm]

theorem commentLength?_eq_some {cs : List Char} {n : Nat} (h : commentLength? cs = some n) :
    ∃ comment rest, cs = (comment ++ ['*', '/']) ++ rest ∧ n = comment.length + 2 ∧
      Uncommented (comment ++ ['*']) := by
  fun_induction commentLength? cs generalizing n with
  | case1 cs =>
    exact ⟨[], cs, rfl, by simpa using h.symm, by simp [Uncommented, List.infix_cons_iff]⟩
  | case2 c cs hc ih =>
    obtain ⟨m, hm, rfl⟩ := Option.map_eq_some_iff.1 h
    obtain ⟨comment, rest, rfl, rfl, hcomment⟩ := ih hm
    refine ⟨c :: comment, rest, rfl, rfl, ?_⟩
    rw [List.cons_append, uncommented_cons]
    refine ⟨fun hstar hslash => ?_, hcomment⟩
    cases comment with
    | nil => simp at hslash
    | cons d ds =>
      have hd : d = '/' := by simpa using hslash
      exact hc (ds ++ ['*', '/'] ++ rest) hstar (by rw [hd, List.cons_append, List.cons_append])
  | case3 => cases h

theorem commentLength?_eq_none {cs : List Char} (h : commentLength? cs = none) :
    Uncommented cs := by
  fun_induction commentLength? cs with
  | case1 => cases h
  | case2 c cs hc ih =>
    refine uncommented_cons.2 ⟨fun hstar hslash => ?_, ih (Option.map_eq_none_iff.1 h)⟩
    cases cs with
    | nil => cases hslash
    | cons d ds =>
      have hd : d = '/' := by simpa using hslash
      exact hc ds hstar (by rw [hd])
  | case3 => simp [Uncommented]

/-- A block comment ends at the first sign that closes it. -/
theorem commentLength?_append {comment : List Char} (h : Uncommented (comment ++ ['*']))
    (rest : List Char) :
    commentLength? ((comment ++ ['*', '/']) ++ rest) = some (comment.length + 2) := by
  induction comment with
  | nil => rfl
  | cons c comment ih =>
    rw [List.cons_append, uncommented_cons] at h
    have hc : ∀ ds, c = '*' → (comment ++ ['*', '/']) ++ rest = '/' :: ds → False := by
      intro ds hstar hslash
      refine h.1 hstar ?_
      cases comment with
      | nil => simp at hslash
      | cons d ds =>
        have hd : d = '/' := (List.cons.inj hslash).1
        simp [hd]
    rw [List.cons_append, List.cons_append, commentLength?.eq_2 _ _ hc, ih h.2]
    rfl

/-! ## Pieces -/

/-- **What is cut off a text is a lexeme, or is skipped, or is unmatched.** -/
theorem fits_measure (c : Char) (cs : List Char) :
    Fits (Piece.measure c cs).1 (c :: cs.take (Piece.measure c cs).2)
      (cs.drop (Piece.measure c cs).2) := by
  unfold Piece.measure
  split
  · exact .matched (.lexeme _ .openBrace)
  · exact .matched (.lexeme _ .closeBrace)
  · exact .matched (.lexeme _ .openParen)
  · exact .matched (.lexeme _ .closeParen)
  · exact .matched (.lexeme _ .comma)
  · exact .matched (.lexeme _ .dot)
  · exact .matched (.lexeme _ .equals)
  · exact .matched (.lexeme _ .newline)
  · have h := isInside_take_quotedLength cs
    dsimp only
    split at h
    · rename_i hclosed
      obtain ⟨inside, htake, hinside⟩ := h
      rw [if_pos hclosed, htake]
      exact .matched (.lexeme _ (.quoted hinside))
    · rename_i hopen
      rw [if_neg hopen]
      exact .unmatched _ (.openQuote h)
  · split
    · rename_i tail
      dsimp only
      rw [take_runLength, drop_runLength]
      exact .matched (.skipped (.slashes (line_takeWhile tail) (endsLine_dropWhile tail)))
    · rename_i body
      split
      · rename_i n hn
        obtain ⟨comment, rest, rfl, rfl, hcomment⟩ := commentLength?_eq_some hn
        dsimp only
        rw [List.take_succ_cons, List.take_left' (by simp)]
        exact .matched (.skipped (.block _ hcomment))
      · rename_i hn
        dsimp only
        rw [List.take_length]
        exact .unmatched _ (.openComment (commentLength?_eq_none hn))
    · exact .unmatched _ (.lone _)
  · split
    · rename_i d ds
      split
      · rename_i hblank
        have hblank : d = ' ' ∨ d = '\t' := by simpa using hblank
        have hd : (d != '\n') = true := by rcases hblank with rfl | rfl <;> rfl
        dsimp only
        rw [take_runLength, drop_runLength, List.takeWhile_cons_of_pos (p := (· != '\n')) hd,
          List.dropWhile_cons_of_pos (p := (· != '\n')) hd]
        exact .matched (.skipped (.hash hblank (line_takeWhile ds) (endsLine_dropWhile ds)))
      · split
        · rename_i hd
          dsimp only
          rw [take_runLength]
          exact .matched (.lexeme _ (.hex (by simp [hd]) fun e he => List.mem_takeWhile_imp he))
        · exact .unmatched _ (.lone _)
    · exact .unmatched _ (.lone _)
  · split
    · split
      · rename_i hd
        exact .matched (.lexeme _ (.negative (isDecimal_take _ hd)))
      · exact .unmatched _ (.lone _)
    · exact .unmatched _ (.lone _)
  · split
    · rename_i hgap
      dsimp only
      rw [take_runLength]
      refine .matched (.skipped (.blanks _ (List.cons_ne_nil _ _) fun d hd => isGap_iff.1 ?_))
      rcases List.mem_cons.1 hd with rfl | hd
      · exact hgap
      · exact List.mem_takeWhile_imp hd
    · split
      · rename_i hd
        have hdigit : IsDecimal [c] := .whole ⟨by simp, by simp [hd]⟩
        have hlength : 1 ≤ numberLength (c :: cs) := hdigit.length_le cs
        obtain ⟨n, hn⟩ := Nat.exists_eq_add_of_le' hlength
        have h := isDecimal_take cs hd
        rw [hn, List.take_succ_cons] at h
        dsimp only
        rw [hn]
        exact .matched (.lexeme _ (.number h))
      · split
        · rename_i hstart
          dsimp only
          rw [take_runLength]
          refine .matched (.lexeme _ (.ident (by simpa [isNameStart] using hstart) fun d hd => ?_))
          have hd := List.mem_takeWhile_imp hd
          simpa [isNameRest, or_assoc] using hd
        · exact .unmatched _ (.lone _)

/-! ## Nothing longer -/

/-- What is cut off at `c`, when no sign of the language begins there. -/
theorem measure_of_letter {c : Char} (cs : List Char)
    (hc : isGap c = true ∨ c.isDigit = true ∨ isNameStart c = true) :
    Piece.measure c cs =
      if isGap c then (none, runLength isGap cs)
      else if c.isDigit then (some .number, numberLength (c :: cs) - 1)
      else (some .ident, runLength isNameRest cs) := by
  unfold Piece.measure
  split
  any_goals (exfalso; revert hc; decide)
  split
  · rfl
  · rename_i hgap
    split
    · rfl
    · rename_i hdigit
      rw [if_pos]
      simpa [hgap, hdigit] using hc

/-- `#` and letters or digits are cut off with all letters and digits behind them. -/
theorem measure_hex {digits : List Char} (some : digits ≠ [])
    (h : ∀ d ∈ digits, d.isAlphanum = true) (behind : List Char) :
    Piece.measure '#' (digits ++ behind) =
      (.some .hex, digits.length + runLength Char.isAlphanum behind) := by
  obtain ⟨d, ds, rfl⟩ := List.exists_cons_of_ne_nil some
  have hd : d.isAlphanum = true := h d List.mem_cons_self
  have hblank : ¬ ((d == ' ' || d == '\t') = true) := by
    intro hblank
    rcases (by simpa using hblank : d = ' ' ∨ d = '\t') with rfl | rfl <;>
      exact absurd hd (by decide)
  rw [List.cons_append, Piece.measure]
  simp only [if_neg hblank, if_pos hd]
  rw [← List.cons_append, runLength, List.takeWhile_append_of_pos h, List.length_append]
  rfl

/-- What is cut off at the head of `text ++ rest` is of kind `kind` and reaches to the end of
`text` at least. -/
def Covered (kind : Option TokenKind) (text rest : List Char) : Prop :=
  ∃ c cs, text = c :: cs ∧ (Piece.measure c (cs ++ rest)).1 = kind ∧
    cs.length ≤ (Piece.measure c (cs ++ rest)).2

theorem Lexeme.covered {kind : TokenKind} {text : List Char} (h : Lexeme kind text)
    (rest : List Char) : Covered (some kind) text rest := by
  cases h with
  | openBrace | closeBrace | openParen | closeParen | comma | dot | equals | newline =>
    exact ⟨_, _, rfl, rfl, Nat.le_refl _⟩
  | @ident c cs first others =>
    have hstart : isNameStart c = true := by simpa [isNameStart] using first
    have hrun : cs.length ≤ runLength isNameRest (cs ++ rest) :=
      length_le_runLength rest fun d hd => by simpa [isNameRest, or_assoc] using others d hd
    refine ⟨c, cs, rfl, ?_⟩
    rw [measure_of_letter _ (.inr (.inr hstart)), isGap_eq_false (.inr hstart),
      isDigit_eq_false hstart]
    exact ⟨rfl, hrun⟩
  | number h =>
    obtain ⟨d, ds, rfl, hd⟩ := h.exists_cons
    have hlength : ds.length + 1 ≤ numberLength (d :: (ds ++ rest)) := h.length_le rest
    refine ⟨d, ds, rfl, ?_⟩
    rw [measure_of_letter _ (.inr (.inl hd)), isGap_eq_false (.inl hd), hd]
    exact ⟨rfl, Nat.le_sub_of_add_le hlength⟩
  | negative h =>
    obtain ⟨d, ds, rfl, hd⟩ := h.exists_cons
    have hlength : (d :: ds).length ≤ numberLength (d :: (ds ++ rest)) := h.length_le rest
    refine ⟨'-', d :: ds, rfl, ?_⟩
    rw [List.cons_append, Piece.measure]
    simp only [if_pos hd]
    exact ⟨trivial, hlength⟩
  | @quoted inside h =>
    refine ⟨'"', inside ++ ['"'], rfl, ?_⟩
    rw [List.append_assoc, List.singleton_append, Piece.measure, h.quotedLength_eq]
    exact ⟨rfl, by simp⟩
  | @hex digits some h =>
    refine ⟨'#', digits, rfl, ?_⟩
    rw [measure_hex some h]
    exact ⟨rfl, Nat.le_add_right _ _⟩

theorem Skipped.covered {text rest : List Char} (h : Skipped text rest) :
    Covered none text rest := by
  cases h with
  | @blanks run rest some h =>
    obtain ⟨c, cs, rfl⟩ := List.exists_cons_of_ne_nil some
    have hc : isGap c = true := isGap_iff.2 (h c List.mem_cons_self)
    have hrun : cs.length ≤ runLength isGap (cs ++ rest) :=
      length_le_runLength rest fun d hd => isGap_iff.2 (h d (List.mem_cons_of_mem c hd))
    refine ⟨c, cs, rfl, ?_⟩
    rw [measure_of_letter _ (.inl hc), if_pos hc]
    exact ⟨rfl, hrun⟩
  | @slashes comment rest line stop =>
    have hcomment : ∀ d ∈ '/' :: comment, (d != '\n') = true := by
      refine List.forall_mem_cons.2 ⟨rfl, fun d hd => ?_⟩
      rw [bne_iff_ne]
      rintro rfl
      exact line hd
    exact ⟨'/', '/' :: comment, rfl, rfl, length_le_runLength rest hcomment⟩
  | @hash c comment rest blank line stop =>
    have hblank : (c == ' ' || c == '\t') = true := by simpa using blank
    have hc : (c != '\n') = true := by rcases blank with rfl | rfl <;> rfl
    have hcomment : ∀ d ∈ c :: comment, (d != '\n') = true := by
      refine List.forall_mem_cons.2 ⟨hc, fun d hd => ?_⟩
      rw [bne_iff_ne]
      rintro rfl
      exact line hd
    have hrun : (c :: comment).length ≤ runLength (· != '\n') (c :: (comment ++ rest)) :=
      length_le_runLength rest hcomment
    refine ⟨'#', c :: comment, rfl, ?_⟩
    rw [List.cons_append, Piece.measure]
    simp only [if_pos hblank]
    exact ⟨trivial, hrun⟩
  | @block comment rest first =>
    refine ⟨'/', '*' :: (comment ++ ['*', '/']), rfl, ?_⟩
    rw [List.cons_append, Piece.measure]
    simp only [commentLength?_append first]
    exact ⟨trivial, by simp⟩

/-- **No lexeme, blank or comment goes on further than what is cut off where it begins, and what
is cut off there is of its kind.** -/
theorem Begins.covered {kind : Option TokenKind} {text rest : List Char}
    (h : Begins kind text rest) : Covered kind text rest := by
  cases h with
  | lexeme rest h => exact h.covered rest
  | skipped h => exact h.covered

end ColorTheme
