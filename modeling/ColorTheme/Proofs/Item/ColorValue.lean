import ColorTheme.Proofs.Color
import ColorTheme.Proofs.Grammar
import ColorTheme.Proofs.Node.Shifted
import ColorTheme.Proofs.Token.Tiling

/-!
# The text of a value that has a color

A value may be a string, and a string may hold anything.  The value of an attribute that resolves to
a color is made of less than that.

* `Grammar.MadeOf` : a phrase is read from tokens of which each has a property.
* `IsColorToken` : signs, names, numbers and colors, line ends, and strings that are hex colors.
* `Grammar.madeOf_of_resolve` : a value that resolves to a color is read from such tokens.
* `IsColorToken.plain` : they are written without braces and without the sign of an attribute.
-/

set_option autoImplicit false

namespace ColorTheme

/-- A token of a value that has a color: if it is a string, it is a hex color. -/
def IsColorToken (t : Token) : Prop :=
  t.kind ∈ [TokenKind.openParen, .closeParen, .comma, .dot, .newline, .ident, .number, .hex] ∨
    t.kind = .quoted ∧ (Color.ofHex? (quotedValue t.text)).isSome = true

namespace Grammar

variable {P : Token → Prop} {t : Token} {ts next rest : List Token}

/-! ## The tokens of a value -/

/-- `ts` begin with tokens that satisfy `P`, and go on with `rest`. -/
def MadeOf (P : Token → Prop) (ts rest : List Token) : Prop :=
  ∃ read, ts = read ++ rest ∧ ∀ t ∈ read, P t

theorem MadeOf.refl (ts : List Token) : MadeOf P ts ts := ⟨[], rfl, by simp⟩

theorem MadeOf.cons (ht : P t) (h : MadeOf P ts rest) : MadeOf P (t :: ts) rest := by
  obtain ⟨read, rfl, hread⟩ := h
  exact ⟨t :: read, rfl, List.forall_mem_cons.2 ⟨ht, hread⟩⟩

theorem MadeOf.trans (h : MadeOf P ts next) (h' : MadeOf P next rest) : MadeOf P ts rest := by
  obtain ⟨a, rfl, ha⟩ := h
  obtain ⟨b, rfl, hb⟩ := h'
  exact ⟨a ++ b, (List.append_assoc ..).symm, List.forall_mem_append.2 ⟨ha, hb⟩⟩

theorem isColorToken_of_kind {kind : TokenKind} (h : t.kind = kind)
    (hkind : kind ∈ [TokenKind.openParen, .closeParen, .comma, .dot, .newline, .ident, .number,
      .hex]) : IsColorToken t := by
  rw [← h] at hkind
  exact .inl hkind

theorem IsNewlines.madeOf (h : IsNewlines ts rest) : MadeOf IsColorToken ts rest := by
  induction h with
  | none ts => exact .refl ts
  | more kind _ ih => exact .cons (isColorToken_of_kind kind (by decide)) ih

theorem IsSegments.madeOf {segments : List Ident} (h : IsSegments ts segments rest) :
    MadeOf IsColorToken ts rest := by
  induction h with
  | none ts => exact .refl ts
  | more dotKind nameKind _ ih =>
    exact .cons (isColorToken_of_kind dotKind (by decide))
      (.cons (isColorToken_of_kind nameKind (by decide)) ih)

theorem IsMoreArgs.madeOf_close {close : Span} (h : IsMoreArgs ts [] close rest) :
    MadeOf IsColorToken ts rest := by
  cases h with
  | close rest kind => exact .cons (isColorToken_of_kind kind (by decide)) (.refl rest)
  | trailing commaKind lines kind =>
    exact .cons (isColorToken_of_kind commaKind (by decide))
      (lines.madeOf.trans (.cons (isColorToken_of_kind kind (by decide)) (.refl rest)))

/-- The last argument of a call that has a color is a number. -/
theorem IsMoreArgs.madeOf_number {percent : Float} {number close : Span}
    (h : IsMoreArgs ts [.number percent number] close rest) : MadeOf IsColorToken ts rest := by
  cases h with
  | more commaKind before first behind more =>
    cases first with
    | number ts kind =>
      refine .cons (isColorToken_of_kind commaKind (by decide)) (before.madeOf.trans ?_)
      refine .cons (isColorToken_of_kind kind (by decide)) (behind.madeOf.trans ?_)
      exact more.madeOf_close

/-- **A value that resolves to a color is read from color tokens.**  The induction is on the value:
a call has a color only if it is made of a value that has one, and a number. -/
theorem madeOf_of_resolve {scopes : Scopes} (e : Expr) {c : Color} {ts rest : List Token}
    (hcolor : scopes.resolve e = .ok c) (h : IsExpr ts e rest) : MadeOf IsColorToken ts rest := by
  cases h with
  | quoted ts kind =>
    refine .cons (.inr ⟨kind, ?_⟩) (.refl _)
    rw [Scopes.resolve, evaluate, Except.bind, Value.color_text_eq_ok_iff] at hcolor
    rw [hcolor]
    rfl
  | hex ts kind | number ts kind =>
    exact .cons (isColorToken_of_kind kind (by decide)) (.refl _)
  | truth kind word => exact .cons (isColorToken_of_kind kind (by decide)) (.refl _)
  | path kind word others =>
    exact .cons (isColorToken_of_kind kind (by decide)) others.madeOf
  | call nameKind parenKind inner =>
    obtain ⟨function, subject, percent, number, c', -, rfl, hsubject⟩ :=
      Scopes.resolve_call_eq_ok hcolor
    refine .cons (isColorToken_of_kind nameKind (by decide))
      (.cons (isColorToken_of_kind parenKind (by decide)) ?_)
    cases inner with
    | some before first behind more =>
      exact before.madeOf.trans ((madeOf_of_resolve subject hsubject first).trans
        (behind.madeOf.trans more.madeOf_number))
termination_by sizeOf e

end Grammar

/-! ## Their characters -/

/-- What is written in a string stands in its value, but for backslashes and two letters behind
them. -/
theorem mem_unescape {c : Char} {cs : List Char} (h : c ∈ cs) (hother : c ∉ ['\\', 'n', 't']) :
    c ∈ unescape cs := by
  fun_induction unescape cs with
  | case1 cs ih | case2 cs ih =>
    simp only [List.mem_cons, List.not_mem_nil, or_false, not_or] at h hother
    have hrest := (h.resolve_left hother.1).resolve_left (by tauto)
    exact List.mem_cons_of_mem _ (ih hrest)
  | case3 d cs _ _ ih =>
    rcases List.mem_cons.1 h with rfl | h
    · exact absurd List.mem_cons_self hother
    · rcases List.mem_cons.1 h with rfl | h
      · exact List.mem_cons_self
      · exact List.mem_cons_of_mem _ (ih h)
  | case4 d cs _ _ _ ih =>
    rcases List.mem_cons.1 h with rfl | h
    · exact List.mem_cons_self
    · exact List.mem_cons_of_mem _ (ih h)
  | case5 => cases h

theorem Lexeme.plain {kind : TokenKind} {text : List Char} (h : Lexeme kind text)
    (hkind : kind ∉ [TokenKind.openBrace, .closeBrace, .equals, .quoted]) :
    ∀ c ∈ text, c ∉ ['=', '\x7b', '\x7d'] := by
  have hchars (hword : kind = .ident ∨ kind = .number ∨ kind = .hex) :
      ∀ c ∈ text, c ∉ ['=', '\x7b', '\x7d'] := by
    intro c hc hmem
    have hother := h.chars hword c hc
    simp only [List.mem_cons, List.not_mem_nil, or_false] at hmem
    rcases hmem with rfl | rfl | rfl <;> revert hother <;> decide
  cases h with
  | openBrace | closeBrace | equals | quoted => simp at hkind
  | openParen | closeParen | comma | dot | newline => simp
  | ident | number | negative | hex => exact hchars (by simp)

/-- **Color tokens are written without braces and without the sign of an attribute.** -/
theorem IsColorToken.plain {t : Token} (h : IsColorToken t) (htext : Lexeme t.kind t.text.toList) :
    ∀ c ∈ t.text.toList, c ∉ ['=', '\x7b', '\x7d'] := by
  rcases h with hkind | ⟨hkind, hhex⟩
  · refine htext.plain ?_
    revert hkind
    generalize t.kind = kind
    cases kind <;> decide
  · rw [hkind] at htext
    have hvalue : quotedValue t.text = String.ofList (unescape t.text.toList.tail.dropLast) := rfl
    generalize t.text.toList = text at htext hvalue ⊢
    cases htext with
    | @quoted inside _ =>
      rw [List.tail_cons, List.dropLast_concat] at hvalue
      rw [hvalue] at hhex
      have hdigits := Color.isHexDigit_of_ofHex? hhex
      rw [String.toList_ofList] at hdigits
      have hother (c : Char) (hmem : c ∈ ['=', '\x7b', '\x7d']) :
          c ∉ ['\\', 'n', 't'] ∧ c ≠ '"' ∧ ¬ (c = '#' ∨ IsHexDigit c) := by
        simp only [List.mem_cons, List.not_mem_nil, or_false] at hmem
        rcases hmem with rfl | rfl | rfl <;> decide
      intro c hc hmem
      obtain ⟨hescape, hquote, hdigit⟩ := hother c hmem
      rcases List.mem_cons.1 hc with rfl | hc
      · exact hquote rfl
      · rcases List.mem_append.1 hc with hc | hc
        · exact hdigit (hdigits c (mem_unescape hc hescape))
        · exact hquote (List.mem_singleton.1 hc)

end ColorTheme
