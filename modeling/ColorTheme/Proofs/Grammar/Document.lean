import ColorTheme.Proofs.Grammar.Torn

/-!
# The reader follows the grammar

* `isBody_of_read` : what the reader reads without a flaw is a body of the grammar.
* `readBody_of_isBody` : a body of the grammar is read, whole and without a flaw.
* `isDocument_iff_flawless` : so a source is read without a flaw exactly if its tokens follow
  the grammar, and the items read are the only tree that the grammar gives them.
-/

set_option autoImplicit false

namespace ColorTheme.Grammar

variable {nested : Bool} {last : Span} {ts rest : List Token}

/-! ## What is read follows the grammar -/

/-- **Soundness of the reader.** -/
theorem isBody_of_read (nested : Bool) (last : Span) (ts : List Token)
    (h : (readBody nested last ts).flaws = []) :
    IsBody ts (readBody nested last ts).items (ts.drop (readBody nested last ts).used) ∧
      Stops nested (ts.drop (readBody nested last ts).used) := by
  obtain ⟨hbody, hstop⟩ := isTornBody_of_read nested last ts (by simp [h])
  exact ⟨hbody.isBody h, hstop⟩

/-! ## What follows the grammar is read -/

theorem readAttribute_of_isExpr (name : Ident) {value : Expr} (h : IsExpr ts value rest)
    (hend : EndsLine rest) :
    ∃ n, readAttribute name ts =
        ⟨[.assignment ⟨name, value, name.span.merge value.span⟩], [], n⟩ ∧ ts.drop n = rest := by
  have hline := (endsLine_iff rest).2 hend
  have hstart : (Token.current ts).kind.endsLine = false := by
    have := h.starts
    unfold StartsExpr at this
    revert this
    cases (Token.current ts).kind <;> decide
  obtain ⟨n, hread, rfl⟩ := readExpr_of_isExpr h
    (by intro hk; rw [hk] at hline; cases hline) (by intro hk; rw [hk] at hline; cases hline)
  refine ⟨n, ?_, rfl⟩
  rw [readAttribute, hstart, hread]
  simp only [hline, if_true, Bool.false_eq_true, if_false]

/-- **Completeness of the reader.** -/
theorem readBody_of_isBody {items : Body} (h : IsBody ts items rest) (nested : Bool)
    (last : Span) (hstop : Stops nested rest) :
    ∃ n, readBody nested last ts = ⟨items, [], n⟩ ∧ ts.drop n = rest := by
  induction h generalizing nested with
  | none ts =>
    refine ⟨0, ?_, rfl⟩
    cases ts with
    | nil => rw [readBody]
    | cons t ts =>
      rcases hstop with hk | ⟨rfl, hk⟩
      · rw [readBody_of_endOfFile (by simpa using hk)]
      · rw [readBody_true_of_closeBrace (by simpa using hk)]
  | newline kind others ih =>
    obtain ⟨n, hread, hdrop⟩ := ih nested hstop
    refine ⟨1 + n, ?_, by rw [Nat.add_comm, List.drop_succ_cons, hdrop]⟩
    rw [readBody_of_newline kind, hread]
    rfl
  | @assignment name sign ts next rest value items nameKind signKind expr line others ih =>
    obtain ⟨n, hattr, rfl⟩ := readAttribute_of_isExpr (Ident.ofToken name) expr line
    obtain ⟨m, hread, hdrop⟩ := ih nested hstop
    refine ⟨2 + n + m, ?_, ?_⟩
    · rw [readBody_of_equals nameKind (by rw [Token.current_cons, signKind])]
      simp only [List.drop_succ_cons, List.drop_zero, hattr, Nat.add_comm 1 n, hread]
      rfl
    · rw [← hdrop, List.drop_drop, show 2 + n + m = n + m + 1 + 1 by omega]
      rfl
  | @block name brace close ts next rest inner items nameKind braceKind body closeKind others
      ihInner ih =>
    obtain ⟨n, hinner, hnext⟩ := ihInner true (.inr ⟨rfl, closeKind⟩)
    obtain ⟨m, hread, hdrop⟩ := ih nested hstop
    have hclose : (brace :: ts).drop (1 + n) = close :: next := by
      rw [Nat.add_comm, List.drop_succ_cons, hnext]
    have hothers : (brace :: ts).drop (2 + n) = next := by
      rw [show 2 + n = 1 + n + 1 by omega, ← List.drop_drop, hclose]
      rfl
    refine ⟨3 + n + m, ?_, ?_⟩
    · rw [readBody_of_closed nameKind (by rw [Token.current_cons, braceKind])]
      · simp only [List.drop_succ_cons, List.drop_zero, hinner, hclose, hothers, hread]
        rfl
      · simp only [List.drop_succ_cons, List.drop_zero, hinner, hclose, Token.current_cons,
          closeKind]
    · rw [← hdrop, ← hothers, List.drop_drop, show 3 + n + m = 2 + n + m + 1 by omega]
      rfl

/-! ## Documents -/

/-- What is read of a source without a flaw is the tree of all its tokens. -/
theorem isDocument_of_flawless {source : String} (h : (Body.read source).flaws = []) :
    IsDocument (tokenize source) (Body.read source).items := by
  have hflaws : ∀ flaw ∈ (Body.read source).flaws, flaw.kind = .nameAfterDot := by simp [h]
  obtain ⟨stop, hstop, hbody⟩ := isTornDocument_of_read hflaws
  exact ⟨stop, hstop, hbody.isBody h⟩

/-- **The reader accepts the grammar and nothing else.**  A source is read without a flaw exactly
if its tokens are a document, and then the items read are its tree. -/
theorem isDocument_iff_flawless (source : String) (items : Body) :
    IsDocument (tokenize source) items ↔
      (Body.read source).flaws = [] ∧ (Body.read source).items = items := by
  obtain ⟨stop, hstop, hlead⟩ := tokenize_leadsTo source
  constructor
  · rintro ⟨stop', hstop', hbody⟩
    obtain ⟨n, hread, -⟩ :=
      readBody_of_isBody hbody false (lastSpan (tokenize source)) (.inl hstop')
    rw [Body.read, hread]
    exact ⟨rfl, rfl⟩
  · rintro ⟨hflaws, rfl⟩
    obtain ⟨hbody, hend | ⟨hnested, -⟩⟩ := isBody_of_read false _ _ hflaws
    · rw [hlead.eq_stop hstop hbody.leadsTo hend] at hbody
      exact ⟨stop, hstop, hbody⟩
    · cases hnested

end ColorTheme.Grammar
