import ColorTheme.Proofs.Grammar.Expr
import ColorTheme.Proofs.Grammar.Progress
import Mathlib.Data.List.TakeWhile
import Mathlib.Tactic.NthRewrite

/-!
# Attributes that are torn off at a dot

The one flaw that may be passed over is a dot that no name follows.  The grammar with this flaw in
it has one production more, an attribute whose value stops at such a dot:

* `IsTorn` : the tokens of a value up to the dot.
* `IsTornBody` : `body`, with its items and with the flaws in it.  Of a torn attribute nothing is
  kept, nor of what stands behind it on its line.
* `isTornBody_of_read` : what the reader reads without any other flaw follows this grammar.
-/

set_option autoImplicit false

namespace ColorTheme.Grammar

variable {t : Token} {ts next rest : List Token} {flaw : Flaw} {n : Nat}

/-- Tokens of a value up to a dot with the flaw that no name follows it, in front of `rest`. -/
def IsTorn (ts : List Token) (flaw : Flaw) (rest : List Token) : Prop :=
  ∃ read dot, ts = read ++ dot :: rest ∧ (∀ t ∈ read, InValue t.kind) ∧ dot.kind = .dot ∧
    (Token.current rest).kind ≠ .ident ∧ flaw = ⟨.nameAfterDot, dot.span⟩

theorem IsTorn.dot {dot : Token} (hdot : dot.kind = .dot)
    (hname : (Token.current rest).kind ≠ .ident) :
    IsTorn (dot :: rest) ⟨.nameAfterDot, dot.span⟩ rest :=
  ⟨[], dot, rfl, by simp, hdot, hname, rfl⟩

theorem Through.isTorn (h : Through InValue ts next) (htorn : IsTorn next flaw rest) :
    IsTorn ts flaw rest := by
  obtain ⟨before, rfl, hbefore⟩ := h
  obtain ⟨read, dot, rfl, hread, hdot⟩ := htorn
  exact ⟨before ++ read, dot, by simp, List.forall_mem_append.2 ⟨hbefore, hread⟩, hdot⟩

theorem IsTorn.cons {k : TokenKind} (hk : t.kind = k) (hvalue : InValue k)
    (h : IsTorn ts flaw rest) : IsTorn (t :: ts) flaw rest :=
  (Through.cons hk hvalue (.refl ts)).isTorn h

/-! ## Values -/

theorem isTorn_of_readSegments (h : readSegments ts = (.error flaw, n)) :
    IsTorn ts flaw (ts.drop n) := by
  fun_induction readSegments ts generalizing flaw n with
  | case1 => cases h
  | case2 dot hdot => cases h; exact .dot hdot (by decide)
  | case3 => cases h
  | case4 dot hdot name rest hname error m heq ih =>
    cases h
    exact .cons hdot (by decide) (.cons hname (by decide) (ih heq))
  | case5 dot hdot name rest hname => cases h; exact .dot hdot hname
  | case6 => cases h

mutual

/-- An expression that stops for want of a name is torn there. -/
theorem isTorn_of_readExpr : ∀ {ts : List Token} {flaw : Flaw} {n : Nat},
    readExpr ts = (.error flaw, n) → flaw.kind = .nameAfterDot → IsTorn ts flaw (ts.drop n)
  | [], flaw, n, h, hkind => by
    rw [readExpr] at h
    cases h
    cases hkind
  | t :: ts, flaw, n, h, hkind => by
    rw [readExpr] at h
    split at h
    · cases h
    · cases h
    · cases h
    · rename_i hident
      split at h
      · rename_i hparen
        have hcons := eq_current_cons (by rw [hparen]; decide)
        split at h
        · cases h
        · rename_i error m heq
          cases h
          rw [hcons]
          exact .cons hident (by decide) (.cons hparen (by decide) (isTorn_of_readArgs heq hkind))
      · split at h
        · cases h
        · split at h
          · cases h
          · rename_i error m heq
            cases h
            exact .cons hident (by decide) (isTorn_of_readSegments heq)
    · cases h
      cases hkind
termination_by ts => 2 * ts.length
decreasing_by simp; omega

theorem isTorn_of_readArgs : ∀ {ts : List Token} {flaw : Flaw} {n : Nat},
    readArgs ts = (.error flaw, n) → flaw.kind = .nameAfterDot → IsTorn ts flaw (ts.drop n)
  | [], flaw, n, h, hkind => by
    rw [readArgs] at h
    cases h
    cases hkind
  | t :: ts, flaw, n, h, hkind => by
    rw [readArgs] at h
    split at h
    · rename_i hline
      obtain ⟨result, m, heq⟩ : ∃ result m, readArgs ts = (result, m) := ⟨_, _, rfl⟩
      rw [heq] at h
      cases h
      exact .cons hline (by decide) (isTorn_of_readArgs heq hkind)
    · split at h
      · cases h
      · split at h
        · rename_i error m heq
          cases h
          exact isTorn_of_readExpr heq hkind
        · rename_i arg m heq
          have harg := (isExpr_of_read heq).inValue
          have hlines := (isNewlines_drop ((t :: ts).drop m)).inValue
          rw [List.drop_drop] at hlines
          dsimp only at h
          split at h
          · rename_i hcomma
            have hcons := eq_current_cons (by rw [hcomma]; decide)
            rw [List.drop_drop] at hcons
            split at h
            · cases h
            · rename_i error k heq
              cases h
              have htorn := (isTorn_of_readArgs heq hkind).cons hcomma (by decide)
              rw [← hcons, List.drop_drop] at htorn
              exact (harg.trans hlines).isTorn htorn
          · split at h
            · cases h
            · cases h
              cases hkind
termination_by ts => 2 * ts.length + 1
decreasing_by all_goals (simp; try omega)

end

/-! ## Bodies -/

/-- `body` with torn attributes in it, with its items and the flaws. -/
inductive IsTornBody : List Token → Body → List Flaw → List Token → Prop
  | none (ts : List Token) : IsTornBody ts [] [] ts
  | newline {t : Token} {ts rest : List Token} {items : Body} {flaws : List Flaw}
      (kind : t.kind = .newline) (others : IsTornBody ts items flaws rest) :
      IsTornBody (t :: ts) items flaws rest
  | assignment {name sign : Token} {ts next rest : List Token} {value : Expr} {items : Body}
      {flaws : List Flaw} (nameKind : name.kind = .ident) (signKind : sign.kind = .equals)
      (expr : IsExpr ts value next) (line : EndsLine next)
      (others : IsTornBody next items flaws rest) :
      IsTornBody (name :: sign :: ts)
        (.assignment ⟨Ident.ofToken name, value, name.span.merge value.span⟩ :: items) flaws rest
  | torn {name sign : Token} {ts behind rest : List Token} {items : Body} {flaw : Flaw}
      {flaws : List Flaw} (nameKind : name.kind = .ident) (signKind : sign.kind = .equals)
      (value : IsTorn ts flaw behind)
      (others : IsTornBody (behind.drop (lineLength behind)) items flaws rest) :
      IsTornBody (name :: sign :: ts) items (flaw :: flaws) rest
  | block {name brace close : Token} {ts next rest : List Token} {inner items : Body}
      {innerFlaws flaws : List Flaw} (nameKind : name.kind = .ident)
      (braceKind : brace.kind = .openBrace) (body : IsTornBody ts inner innerFlaws (close :: next))
      (closeKind : close.kind = .closeBrace) (others : IsTornBody next items flaws rest) :
      IsTornBody (name :: brace :: ts)
        (.block (Ident.ofToken name) inner (name.span.merge close.span) :: items)
        (innerFlaws ++ flaws) rest

/-- Without flaws it is a body of the grammar. -/
theorem IsTornBody.isBody {items : Body} {flaws : List Flaw} (h : IsTornBody ts items flaws rest)
    (hflaws : flaws = []) : IsBody ts items rest := by
  induction h with
  | none ts => exact .none ts
  | newline kind others ih => exact .newline kind (ih hflaws)
  | assignment nameKind signKind expr line others ih =>
    exact .assignment nameKind signKind expr line (ih hflaws)
  | torn nameKind signKind value others ih => cases hflaws
  | block nameKind braceKind body closeKind others ihInner ih =>
    obtain ⟨hinner, hrest⟩ := List.append_eq_nil_iff.1 hflaws
    exact .block nameKind braceKind (ihInner hinner) closeKind (ih hrest)

theorem endsLine_iff (ts : List Token) :
    (Token.current ts).kind.endsLine = true ↔ EndsLine ts := by
  simp [TokenKind.endsLine, EndsLine, or_assoc]

/-- Where the items of a body may end. -/
def Stops (nested : Bool) (ts : List Token) : Prop :=
  (Token.current ts).kind = .endOfFile ∨ (nested = true ∧ (Token.current ts).kind = .closeBrace)

/-- An attribute without another flaw is the whole of its line, or it is torn. -/
theorem readAttribute_cases {name : Ident}
    (h : ∀ flaw ∈ (readAttribute name ts).flaws, flaw.kind = .nameAfterDot) :
    (∃ value,
      (readAttribute name ts).items = [.assignment ⟨name, value, name.span.merge value.span⟩] ∧
      (readAttribute name ts).flaws = [] ∧
      IsExpr ts value (ts.drop (readAttribute name ts).used) ∧
      EndsLine (ts.drop (readAttribute name ts).used)) ∨
    ∃ flaw behind, (readAttribute name ts).items = [] ∧ (readAttribute name ts).flaws = [flaw] ∧
      IsTorn ts flaw behind ∧
      ts.drop (readAttribute name ts).used = behind.drop (lineLength behind) := by
  unfold readAttribute at h ⊢
  split at h
  · cases h _ (List.mem_singleton_self _)
  · rename_i hstart
    rw [if_neg hstart]
    split at h
    · rename_i flaw n heq
      have htorn := isTorn_of_readExpr heq (h flaw (List.mem_singleton_self _))
      exact .inr ⟨flaw, ts.drop n, rfl, rfl, htorn, List.drop_drop.symm⟩
    · rename_i value n heq
      dsimp only at h ⊢
      split at h
      · rename_i hend
        rw [if_pos hend]
        exact .inl ⟨value, rfl, rfl, isExpr_of_read heq, (endsLine_iff _).1 hend⟩
      · cases h _ (List.mem_singleton_self _)

/-- **What is read with no other flaw than dots without names follows the torn grammar.** -/
theorem isTornBody_of_read (nested : Bool) (last : Span) (ts : List Token)
    (h : ∀ flaw ∈ (readBody nested last ts).flaws, flaw.kind = .nameAfterDot) :
    IsTornBody ts (readBody nested last ts).items (readBody nested last ts).flaws
        (ts.drop (readBody nested last ts).used) ∧
      Stops nested (ts.drop (readBody nested last ts).used) := by
  induction nested, ts using readBody.induct last with
  | case1 nested =>
    rw [readBody]
    exact ⟨.none [], .inl rfl⟩
  | case2 nested t ts hk =>
    rw [readBody_of_endOfFile hk]
    exact ⟨.none _, .inl hk⟩
  | case3 nested t ts hk ih =>
    rw [readBody_of_newline hk] at h ⊢
    obtain ⟨hbody, hstop⟩ := ih h
    simp only [Reading.items_after, Reading.flaws_after, Reading.used_after, Nat.add_comm 1,
      List.drop_succ_cons]
    exact ⟨.newline hk hbody, hstop⟩
  | case4 t ts hk =>
    rw [readBody_true_of_closeBrace hk]
    exact ⟨.none _, .inr ⟨rfl, hk⟩⟩
  | case5 nested t ts hk hnested ih =>
    obtain rfl : nested = false := by simpa using hnested
    rw [readBody_false_of_closeBrace hk] at h
    cases h _ List.mem_cons_self
  | case6 nested t ts hk name hsign value ih =>
    rw [readBody_of_equals hk hsign] at h ⊢
    rw [Reading.flaws_after, List.forall_mem_append] at h
    obtain ⟨hbody, hstop⟩ := ih h.2
    have hcons : ts = _ := eq_current_cons (by rw [hsign]; decide)
    have hdrop : ∀ k m, (t :: ts).drop (2 + k + m) = ts.drop (1 + k + m) := by
      intro k m
      rw [show 2 + k + m = 1 + k + m + 1 by omega, List.drop_succ_cons]
    simp only [Reading.items_after, Reading.flaws_after, Reading.used_after, hdrop]
    rw [List.drop_drop] at hbody hstop
    refine ⟨?_, hstop⟩
    rcases readAttribute_cases h.1 with
      ⟨e, hitems, hflaws, hexpr, hend⟩ | ⟨flaw, behind, hitems, hflaws, htorn, hbehind⟩
    · rw [hitems, hflaws]
      conv => arg 1; rw [hcons]
      rw [List.drop_drop] at hexpr hend
      exact .assignment hk hsign hexpr hend hbody
    · rw [hitems, hflaws]
      conv => arg 1; rw [hcons]
      rw [List.drop_drop] at hbehind
      refine .torn hk hsign htorn ?_
      rw [← hbehind]
      exact hbody
  | case7 nested t ts hk hbrace inner close hclose ihInner ih =>
    rw [readBody_of_closed hk hbrace hclose] at h ⊢
    simp only [Reading.flaws_after, List.forall_mem_append] at h
    obtain ⟨hinner, -⟩ := ihInner h.1
    obtain ⟨hbody, hstop⟩ := ih h.2
    have hcons : ts = _ := eq_current_cons (by rw [hbrace]; decide)
    have hcons' := eq_current_cons (by rw [hclose]; decide)
    simp only [Reading.items_after, Reading.flaws_after, Reading.used_after, List.drop_drop] at *
    rw [show 1 + inner.used + 1 = 2 + inner.used by omega] at hcons'
    rw [hcons'] at hinner
    rw [show ∀ k m, (t :: ts).drop (3 + k + m) = ts.drop (2 + k + m) by
      intro k m; rw [show 3 + k + m = 2 + k + m + 1 by omega, List.drop_succ_cons]]
    refine ⟨?_, hstop⟩
    conv => arg 1; rw [hcons]
    exact .block hk hbrace hinner hclose hbody
  | case8 nested t ts hk hbrace inner close hclose ihInner ih =>
    rw [readBody_of_unclosed hk hbrace hclose] at h
    cases h ⟨.unclosedBlock t.text, (Token.current ts).span⟩ (by simp)
  | case9 nested t ts hk hsign hbrace ih =>
    rw [readBody_of_noSign hk hsign hbrace] at h
    cases h _ List.mem_cons_self
  | case10 nested t ts hend hline hclose hname ih =>
    rw [readBody_of_noItem hend hline hclose hname] at h
    cases h _ List.mem_cons_self

/-! ## Documents -/

/-- What is lost of a line does not reach past its end. -/
theorem leadsTo_drop_lineLength (ts : List Token) : LeadsTo ts (ts.drop (lineLength ts)) := by
  obtain ⟨behind, hsplit⟩ := ts.takeWhile_prefix fun t => !t.kind.endsLine
  refine ⟨ts.takeWhile (!·.kind.endsLine), ?_, fun t ht hend => ?_⟩
  · have hdrop : ts.drop (lineLength ts) = behind := by
      nth_rewrite 2 [← hsplit]
      exact List.drop_left
    rw [hdrop, hsplit]
  · have hline := List.mem_takeWhile_imp ht
    rw [hend] at hline
    cases hline

theorem IsTorn.leadsTo (h : IsTorn ts flaw rest) : LeadsTo ts rest := by
  obtain ⟨read, dot, rfl, hread, hdot, -⟩ := h
  have hto : Through InValue (read ++ dot :: rest) (dot :: rest) := ⟨read, rfl, hread⟩
  exact hto.leadsTo.trans (.cons hdot (by decide) (.refl rest))

theorem IsTornBody.leadsTo {items : Body} {flaws : List Flaw}
    (h : IsTornBody ts items flaws rest) : LeadsTo ts rest := by
  induction h with
  | none ts => exact .refl ts
  | newline kind _ ih => exact .cons kind (by decide) ih
  | assignment nameKind signKind expr _ _ ih =>
    exact .cons nameKind (by decide) (.cons signKind (by decide) (expr.leadsTo.trans ih))
  | torn nameKind signKind value _ ih =>
    exact .cons nameKind (by decide) (.cons signKind (by decide)
      (value.leadsTo.trans ((leadsTo_drop_lineLength _).trans ih)))
  | block nameKind braceKind _ closeKind _ ihInner ih =>
    exact .cons nameKind (by decide) (.cons braceKind (by decide)
      (ihInner.trans (.cons closeKind (by decide) ih)))

/-- The tokens of a whole document with torn attributes in it, with its items and flaws. -/
def IsTornDocument (ts : List Token) (items : Body) (flaws : List Flaw) : Prop :=
  ∃ stop : Token, stop.kind = .endOfFile ∧ IsTornBody ts items flaws [stop]

/-- A source that is read with no other flaw than dots without names is a torn document. -/
theorem isTornDocument_of_read {source : String}
    (h : ∀ flaw ∈ (Body.read source).flaws, flaw.kind = .nameAfterDot) :
    IsTornDocument (tokenize source) (Body.read source).items (Body.read source).flaws := by
  obtain ⟨stop, hstop, hlead⟩ := tokenize_leadsTo source
  obtain ⟨hbody, hend | ⟨hnested, -⟩⟩ := isTornBody_of_read false _ _ h
  · rw [hlead.eq_stop hstop hbody.leadsTo hend] at hbody
    exact ⟨stop, hstop, hbody⟩
  · cases hnested

end ColorTheme.Grammar
