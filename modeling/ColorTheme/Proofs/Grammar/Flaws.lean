import ColorTheme.Proofs.Grammar

/-!
# Where flaws stand

* `standsAt_of_readExpr` : an expression that cannot be read has its flaw at one of the tokens.
* `standsAt_of_readBody` : so has a body each of its flaws.
-/

set_option autoImplicit false

namespace ColorTheme

variable {t : Token} {ts : List Token} {flaw : Flaw} {n : Nat}

/-- The flaw stands where one of the tokens does, or where they have run out. -/
def Flaw.StandsAt (f : Flaw) (ts : List Token) : Prop :=
  ∃ k, f.span = (Token.current (ts.drop k)).span

theorem Flaw.standsAt_unexpected (expected : Expectation) (ts : List Token) :
    (Flaw.unexpected expected ts).StandsAt ts := ⟨0, rfl⟩

theorem Flaw.StandsAt.of_drop (h : flaw.StandsAt (ts.drop n)) : flaw.StandsAt ts := by
  obtain ⟨k, hk⟩ := h
  rw [List.drop_drop] at hk
  exact ⟨n + k, hk⟩

theorem Flaw.StandsAt.cons (h : flaw.StandsAt ts) : flaw.StandsAt (t :: ts) := by
  have h : flaw.StandsAt ((t :: ts).drop 1) := h
  exact h.of_drop

namespace Grammar

theorem standsAt_of_readSegments (h : readSegments ts = (.error flaw, n)) : flaw.StandsAt ts := by
  fun_induction readSegments ts generalizing flaw n with
  | case1 => cases h
  | case2 dot => cases h; exact ⟨0, rfl⟩
  | case3 => cases h
  | case4 dot hdot name rest hname error m heq ih => cases h; exact (ih heq).cons.cons
  | case5 dot => cases h; exact ⟨0, rfl⟩
  | case6 => cases h

mutual

theorem standsAt_of_readExpr : ∀ {ts : List Token} {flaw : Flaw} {n : Nat},
    readExpr ts = (.error flaw, n) → flaw.StandsAt ts
  | [], flaw, n, h => by
    rw [readExpr] at h
    cases h
    exact Flaw.standsAt_unexpected _ _
  | t :: ts, flaw, n, h => by
    rw [readExpr] at h
    split at h
    · cases h
    · cases h
    · cases h
    · split at h
      · split at h
        · cases h
        · rename_i error m heq
          cases h
          exact (standsAt_of_readArgs heq).of_drop.cons
      · split at h
        · cases h
        · split at h
          · cases h
          · rename_i error m heq
            cases h
            exact (standsAt_of_readSegments heq).cons
    · cases h
      exact Flaw.standsAt_unexpected _ _
termination_by ts => 2 * ts.length
decreasing_by simp; omega

theorem standsAt_of_readArgs : ∀ {ts : List Token} {flaw : Flaw} {n : Nat},
    readArgs ts = (.error flaw, n) → flaw.StandsAt ts
  | [], flaw, n, h => by
    rw [readArgs] at h
    cases h
    exact Flaw.standsAt_unexpected _ _
  | t :: ts, flaw, n, h => by
    rw [readArgs] at h
    split at h
    · obtain ⟨result, m, heq⟩ : ∃ result m, readArgs ts = (result, m) := ⟨_, _, rfl⟩
      rw [heq] at h
      cases h
      exact (standsAt_of_readArgs heq).cons
    · split at h
      · cases h
      · split at h
        · rename_i error m heq
          cases h
          exact standsAt_of_readExpr heq
        · dsimp only at h
          split at h
          · split at h
            · cases h
            · rename_i error m heq
              cases h
              exact (standsAt_of_readArgs heq).of_drop
          · split at h
            · cases h
            · cases h
              exact (Flaw.standsAt_unexpected _ _).of_drop
termination_by ts => 2 * ts.length + 1
decreasing_by all_goals (simp; try omega)

end

theorem standsAt_of_readAttribute (name : Ident) (ts : List Token) :
    ∀ f ∈ (readAttribute name ts).flaws, f.StandsAt ts := by
  unfold readAttribute
  intro f hf
  split at hf
  · rw [List.mem_singleton.1 hf]
    exact ⟨0, rfl⟩
  · split at hf
    · rename_i error n heq
      rw [List.mem_singleton.1 hf]
      exact standsAt_of_readExpr heq
    · dsimp only at hf
      split at hf
      · cases hf
      · rw [List.mem_singleton.1 hf]
        exact (Flaw.standsAt_unexpected _ _).of_drop

/-- **Each flaw of a body stands at one of its tokens.** -/
theorem standsAt_of_readBody (nested : Bool) (last : Span) (ts : List Token) :
    ∀ f ∈ (readBody nested last ts).flaws, f.StandsAt ts := by
  induction nested, ts using readBody.induct last with
  | case1 nested => rw [readBody]; intro f hf; cases hf
  | case2 nested t ts hk => rw [readBody_of_endOfFile hk]; intro f hf; cases hf
  | case3 nested t ts hk ih =>
    rw [readBody_of_newline hk, Reading.flaws_after, List.nil_append]
    exact fun f hf => (ih f hf).cons
  | case4 t ts hk => rw [readBody_true_of_closeBrace hk]; intro f hf; cases hf
  | case5 nested t ts hk hnested ih =>
    obtain rfl : nested = false := by simpa using hnested
    rw [readBody_false_of_closeBrace hk, Reading.flaws_after, List.singleton_append]
    exact List.forall_mem_cons.2 ⟨⟨0, rfl⟩, fun f hf => (ih f hf).cons⟩
  | case6 nested t ts hk name hsign value ih =>
    rw [readBody_of_equals hk hsign, Reading.flaws_after]
    refine List.forall_mem_append.2 ⟨fun f hf => ?_, fun f hf => (ih f hf).of_drop.cons⟩
    exact (standsAt_of_readAttribute _ _ f hf).of_drop.cons
  | case7 nested t ts hk hbrace inner close hclose ihInner ih =>
    rw [readBody_of_closed hk hbrace hclose, Reading.flaws_after]
    exact List.forall_mem_append.2
      ⟨fun f hf => (ihInner f hf).of_drop.cons, fun f hf => (ih f hf).of_drop.cons⟩
  | case8 nested t ts hk hbrace inner close hclose ihInner ih =>
    rw [readBody_of_unclosed hk hbrace hclose, Reading.flaws_after]
    refine List.forall_mem_append.2 ⟨List.forall_mem_append.2
      ⟨fun f hf => (ihInner f hf).of_drop.cons, ?_⟩, fun f hf => (ih f hf).of_drop.cons⟩
    intro f hf
    rw [List.mem_singleton.1 hf]
    exact Flaw.StandsAt.cons ⟨0, rfl⟩
  | case9 nested t ts hk hsign hbrace ih =>
    rw [readBody_of_noSign hk hsign hbrace, Reading.flaws_after, List.singleton_append]
    exact List.forall_mem_cons.2
      ⟨(Flaw.standsAt_unexpected _ _).cons, fun f hf => (ih f hf).of_drop.cons⟩
  | case10 nested t ts hend hline hclose hname ih =>
    rw [readBody_of_noItem hend hline hclose hname, Reading.flaws_after, List.singleton_append]
    exact List.forall_mem_cons.2
      ⟨Flaw.standsAt_unexpected _ _, fun f hf => (ih f hf).of_drop.cons⟩

end Grammar

end ColorTheme
