import ColorTheme.Proofs.Item.Naming

/-!
# Values and their tokens

* `Body.exists_isExpr` : the value of each attribute of a source is an expression among its tokens.
* `Body.exists_literal` : a literal of color is one token.
* `Body.exists_name` : a path and a call begin with a name.
* `Expr.PartOf`, `Body.exists_isExpr_of_partOf` : so is each expression that stands in a value, as an
  argument of a call at any depth.
-/

set_option autoImplicit false

namespace ColorTheme

/-- The kind and the value of a literal of color, with or without quotes. -/
def Expr.literal? : Expr → Option (TokenKind × String)
  | .quoted text _ => some (.quoted, text)
  | .hex text _ => some (.hex, text)
  | _ => none

/-- The same of a token. -/
def Token.literal? (t : Token) : Option (TokenKind × String) :=
  match t.kind with
  | .quoted => some (.quoted, quotedValue t.text)
  | .hex => some (.hex, t.text)
  | _ => none

theorem Token.literal?_kind {t : Token} {kind : TokenKind} {value : String}
    (h : t.literal? = some (kind, value)) : t.kind = kind ∧ (kind = .quoted ∨ kind = .hex) := by
  unfold Token.literal? at h
  split at h
  · rename_i hk
    cases h
    exact ⟨hk, .inl rfl⟩
  · rename_i hk
    cases h
    exact ⟨hk, .inr rfl⟩
  · cases h

/-- The values of all attributes in the items are expressions that begin somewhere in `ts`. -/
def Valued (ts : List Token) (items : Body) : Prop :=
  ∀ a, .assignment a ∈ spreadAll items →
    ∃ start rest, start <:+ ts ∧ Grammar.IsExpr start a.value rest

section

variable {last : Span} {t : Token} {ss ts : List Token} {items items' : Body}

namespace Valued

theorem nil (ts : List Token) : Valued ts [] := fun _ h => by cases h

theorem mono (h : Valued ss items) (hsub : ss <:+ ts) : Valued ts items := by
  intro a ha
  obtain ⟨start, rest, hstart, hexpr⟩ := h a ha
  exact ⟨start, rest, hstart.trans hsub, hexpr⟩

theorem append (h : Valued ts items) (h' : Valued ts items') : Valued ts (items ++ items') := by
  intro a ha
  rw [spreadAll_append] at ha
  rcases List.mem_append.1 ha with ha | ha
  · exact h a ha
  · exact h' a ha

theorem block (h : Valued ts items) (kind : Ident) (span : Span) :
    Valued ts [.block kind items span] := by
  intro a ha
  rw [spreadAll, Item.spread, spreadAll_nil, List.append_nil] at ha
  rcases List.mem_cons.1 ha with ha | ha
  · cases ha
  · exact h a ha

theorem assignment (name : Ident) (ts : List Token) : Valued ts (readAttribute name ts).items := by
  unfold readAttribute
  split
  · exact .nil ts
  · split
    · exact .nil ts
    · rename_i value n hvalue
      have hitem : Valued ts [.assignment ⟨name, value, name.span.merge value.span⟩] := by
        intro a ha
        cases List.mem_singleton.1 ha
        exact ⟨ts, _, List.suffix_refl ts, Grammar.isExpr_of_read hvalue⟩
      dsimp only
      split <;> exact hitem

end Valued

/-- **The value of each attribute is read from the tokens.** -/
theorem valued_readBody (nested : Bool) (last : Span) (ts : List Token) :
    Valued ts (readBody nested last ts).items := by
  have hcons (t : Token) (ts : List Token) (n : Nat) : ts.drop n <:+ t :: ts :=
    (List.drop_suffix n ts).trans (List.suffix_cons t ts)
  induction nested, ts using readBody.induct last with
  | case1 nested => rw [readBody]; exact .nil _
  | case2 nested t ts hk => rw [readBody_of_endOfFile hk]; exact .nil _
  | case3 nested t ts hk ih =>
    rw [readBody_of_newline hk]
    exact ih.mono (hcons t ts 0)
  | case4 t ts hk => rw [readBody_true_of_closeBrace hk]; exact .nil _
  | case5 nested t ts hk hnested ih =>
    obtain rfl : nested = false := by simpa using hnested
    rw [readBody_false_of_closeBrace hk]
    exact ih.mono (hcons t ts 0)
  | case6 nested t ts hk name hsign value ih =>
    rw [readBody_of_equals hk hsign]
    exact ((Valued.assignment _ _).mono (hcons t ts 1)).append (ih.mono (hcons t ts _))
  | case7 nested t ts hk hbrace inner close hclose ihInner ih =>
    rw [readBody_of_closed hk hbrace hclose]
    exact ((ihInner.block _ _).mono (hcons t ts 1)).append (ih.mono (hcons t ts _))
  | case8 nested t ts hk hbrace inner close hclose ihInner ih =>
    rw [readBody_of_unclosed hk hbrace hclose]
    exact ((ihInner.block _ _).mono (hcons t ts 1)).append (ih.mono (hcons t ts _))
  | case9 nested t ts hk hsign hbrace ih =>
    rw [readBody_of_noSign hk hsign hbrace]
    exact ih.mono (hcons t ts _)
  | case10 nested t ts hend hline hclose hname ih =>
    rw [readBody_of_noItem hend hline hclose hname]
    exact ih.mono (hcons t ts _)

end

section

variable {source : String} {a : Attribute}

/-- The value of each attribute of a source is an expression among its tokens. -/
theorem Body.exists_isExpr (h : .assignment a ∈ spreadAll (Body.read source).items) :
    ∃ start rest, start <:+ tokenize source ∧ Grammar.IsExpr start a.value rest :=
  valued_readBody false (lastSpan (tokenize source)) (tokenize source) a h

/-- **A literal of color is one token.** -/
theorem Body.exists_literal (h : .assignment a ∈ spreadAll (Body.read source).items)
    {literal : TokenKind × String} (hliteral : a.value.literal? = some literal) :
    ∃ t ∈ tokenize source, t.span = a.value.span ∧ t.literal? = some literal := by
  obtain ⟨start, rest, hstart, hexpr⟩ := Body.exists_isExpr h
  generalize a.value = value at hliteral hexpr ⊢
  cases hexpr with
  | quoted ts kind =>
    cases hliteral
    refine ⟨_, hstart.subset List.mem_cons_self, rfl, ?_⟩
    rw [Token.literal?, kind]
  | hex ts kind =>
    cases hliteral
    refine ⟨_, hstart.subset List.mem_cons_self, rfl, ?_⟩
    rw [Token.literal?, kind]
  | number _ _ | truth _ _ | path _ _ _ | call _ _ _ => cases hliteral

/-- **What is no literal of color, and no number, begins with a name.** -/
theorem Body.exists_name (h : .assignment a ∈ spreadAll (Body.read source).items)
    (hliteral : a.value.literal? = none) (hnumber : ∀ x s, a.value ≠ .number x s) :
    ∃ t ∈ tokenize source, t.kind = .ident ∧ t.span.start = a.value.span.start ∧
      t.span.stop ≤ a.value.span.stop := by
  obtain ⟨start, rest, hstart, hexpr⟩ := Body.exists_isExpr h
  have hordered : Ordered start := (ordered_tokenize source).sublist hstart.sublist
  generalize a.value = value at hliteral hnumber hexpr ⊢
  cases hexpr with
  | quoted _ _ | hex _ _ => cases hliteral
  | number _ _ => exact absurd rfl (hnumber _ _)
  | @truth t ts kind word =>
    exact ⟨t, hstart.subset List.mem_cons_self, kind, rfl, Nat.le_refl _⟩
  | @path t ts rest segments kind word others =>
    have hsame := (Grammar.IsExpr.path kind word others).start_eq hordered
    exact ⟨t, hstart.subset List.mem_cons_self, kind, hsame.symm, Span.stop_le_merge _ _⟩
  | call nameKind parenKind inner =>
    have hsame := (Grammar.IsExpr.call nameKind parenKind inner).start_eq hordered
    exact ⟨_, hstart.subset List.mem_cons_self, nameKind, hsame.symm, Span.stop_le_merge _ _⟩

end

/-! ## Expressions inside of values -/

/-- The expression is `whole`, or stands in an argument of the call that `whole` is. -/
inductive Expr.PartOf (e : Expr) : Expr → Prop
  | self : PartOf e e
  | argument {name : Ident} {args : List Expr} {span : Span} {arg : Expr} (h : arg ∈ args)
      (inside : PartOf e arg) : PartOf e (.call name args span)

namespace Grammar

variable {ts rest : List Token} {args : List Expr} {close : Span}

theorem IsMoreArgs.exists_isExpr : ∀ {ts : List Token} {args : List Expr} {close : Span}
    {rest : List Token}, IsMoreArgs ts args close rest →
      ∀ arg ∈ args, ∃ start behind, start <:+ ts ∧ IsExpr start arg behind
  | _, _, _, _, .close _ _, _, harg => by cases harg
  | _, _, _, _, .trailing _ _ _, _, harg => by cases harg
  | _, _, _, _, .more _ before first behind others, arg, harg => by
    rcases List.mem_cons.1 harg with rfl | harg
    · exact ⟨_, _, before.leadsTo.suffix.trans (List.suffix_cons _ _), first⟩
    · obtain ⟨start, rest, hstart, hexpr⟩ := others.exists_isExpr arg harg
      have hto := before.leadsTo.trans (first.leadsTo.trans behind.leadsTo)
      exact ⟨start, rest, (hstart.trans hto.suffix).trans (List.suffix_cons _ _), hexpr⟩

/-- The arguments of a call are expressions among its tokens. -/
theorem IsArgs.exists_isExpr (h : IsArgs ts args close rest) :
    ∀ arg ∈ args, ∃ start behind, start <:+ ts ∧ IsExpr start arg behind := by
  cases h with
  | none lines kind => exact fun arg harg => absurd harg List.not_mem_nil
  | some before first behind more =>
    refine List.forall_mem_cons.2 ⟨⟨_, _, before.leadsTo.suffix, first⟩, fun arg harg => ?_⟩
    obtain ⟨start, rest, hstart, hexpr⟩ := more.exists_isExpr arg harg
    have hto := before.leadsTo.trans (first.leadsTo.trans behind.leadsTo)
    exact ⟨start, rest, hstart.trans hto.suffix, hexpr⟩

/-- The parts of an expression are expressions among its tokens. -/
theorem IsExpr.exists_isExpr {e whole : Expr} (h : IsExpr ts whole rest) (hpart : e.PartOf whole) :
    ∃ start behind, start <:+ ts ∧ IsExpr start e behind := by
  induction hpart generalizing ts rest with
  | self => exact ⟨ts, rest, List.suffix_refl ts, h⟩
  | argument harg _ ih =>
    cases h with
    | @call name paren ts _ _ _ nameKind parenKind inner =>
      obtain ⟨start, behind, hstart, hexpr⟩ := inner.exists_isExpr _ harg
      obtain ⟨start', behind', hstart', hexpr'⟩ := ih hexpr
      exact ⟨start', behind', (hstart'.trans hstart).trans (List.suffix_append [name, paren] ts),
        hexpr'⟩

end Grammar

/-- **Each expression inside of a value of a source is an expression among its tokens.** -/
theorem Body.exists_isExpr_of_partOf {source : String} {a : Attribute} {e : Expr}
    (h : .assignment a ∈ spreadAll (Body.read source).items) (hpart : e.PartOf a.value) :
    ∃ start rest, start <:+ tokenize source ∧ Grammar.IsExpr start e rest := by
  obtain ⟨start, rest, hstart, hexpr⟩ := Body.exists_isExpr h
  obtain ⟨start', rest', hstart', hexpr'⟩ := hexpr.exists_isExpr hpart
  exact ⟨start', rest', hstart'.trans hstart, hexpr'⟩

end ColorTheme
