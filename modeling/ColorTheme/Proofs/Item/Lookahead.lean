import ColorTheme.Item.Reading

/-!
# The reader looks one token ahead

What a reader answers depends on the tokens that it reads and on the one behind them, and on
nothing further on.

* `Agree` : lists of tokens that begin in the same way.
* `readExpr_agree`, `readArgs_agree`, `readAttribute_agree` : where the tokens up to the one behind
  what is read are the same, so is the answer.
-/

set_option autoImplicit false

namespace ColorTheme

variable {t : Token} {ts us : List Token} {m n : Nat}

/-- The lists have the same first `n` tokens, or they are the same and shorter. -/
def Agree (n : Nat) (ts us : List Token) : Prop := us.take n = ts.take n

namespace Agree

theorem mono (h : Agree n ts us) (hle : m ≤ n) : Agree m ts us := by
  have htake := congrArg (List.take m) h
  rwa [List.take_take, List.take_take, Nat.min_eq_left hle] at htake

theorem nil (h : Agree (n + 1) [] us) : us = [] := by
  cases us with
  | nil => rfl
  | cons u us => cases h

theorem cons (h : Agree (n + 1) (t :: ts) us) : ∃ vs, us = t :: vs ∧ Agree n ts vs := by
  cases us with
  | nil => cases h
  | cons u us =>
    unfold Agree at h
    rw [List.take_succ_cons, List.take_succ_cons] at h
    obtain ⟨rfl, hrest⟩ := List.cons.inj h
    exact ⟨us, rfl, hrest⟩

theorem drop (k : Nat) (h : Agree m ts us) (hle : k + n ≤ m) :
    Agree n (ts.drop k) (us.drop k) := by
  have hdrop := congrArg (List.drop k) (h.mono hle)
  rwa [List.drop_take, List.drop_take, Nat.add_sub_cancel_left] at hdrop

theorem current (h : Agree (n + 1) ts us) : Token.current us = Token.current ts := by
  cases ts with
  | nil => rw [h.nil]
  | cons t ts =>
    obtain ⟨vs, rfl, -⟩ := h.cons
    rfl

theorem current_drop {k : Nat} (h : Agree m ts us) (hlt : k < m) :
    Token.current (us.drop k) = Token.current (ts.drop k) :=
  (h.drop (n := 1) k hlt).current

theorem takeWhile {p : Token → Bool} (h : Agree ((ts.takeWhile p).length + 1) ts us) :
    us.takeWhile p = ts.takeWhile p := by
  induction ts generalizing us with
  | nil => rw [h.nil]
  | cons t ts ih =>
    obtain ⟨vs, rfl, hvs⟩ := h.cons
    by_cases hp : p t = true
    · rw [List.takeWhile_cons_of_pos hp, List.length_cons] at hvs
      rw [List.takeWhile_cons_of_pos hp, List.takeWhile_cons_of_pos hp, ih hvs]
    · rw [List.takeWhile_cons_of_neg hp, List.takeWhile_cons_of_neg hp]

theorem newlineCount (h : Agree (newlineCount ts + 1) ts us) :
    newlineCount us = newlineCount ts := congrArg List.length (takeWhile h)

theorem lineLength (h : Agree (lineLength ts + 1) ts us) : lineLength us = lineLength ts :=
  congrArg List.length (takeWhile h)

/-- What is found in the wrong place is the next token. -/
theorem unexpected (expected : Expectation) (h : Agree (n + 1) ts us) :
    Flaw.unexpected expected us = .unexpected expected ts := by
  rw [Flaw.unexpected, h.current, Flaw.unexpected]

end Agree

/-! ## Expressions -/

theorem readSegments_agree (h : Agree ((readSegments ts).2 + 1) ts us) :
    readSegments us = readSegments ts := by
  fun_induction readSegments ts generalizing us with
  | case1 =>
    rw [h.nil]
    rfl
  | case2 dot hdot =>
    obtain ⟨vs, rfl, hvs⟩ := h.cons
    rw [hvs.nil, readSegments, if_pos hdot]
  | case3 dot hdot name rest hname segments k heq ih =>
    obtain ⟨vs, rfl, hvs⟩ := h.cons
    obtain ⟨ws, rfl, hws⟩ := hvs.cons
    rw [heq] at ih
    rw [readSegments, if_pos hdot, if_pos hname, ih hws]
  | case4 dot hdot name rest hname flaw k heq ih =>
    obtain ⟨vs, rfl, hvs⟩ := h.cons
    obtain ⟨ws, rfl, hws⟩ := hvs.cons
    rw [heq] at ih
    rw [readSegments, if_pos hdot, if_pos hname, ih hws]
  | case5 dot hdot name rest hname =>
    obtain ⟨vs, rfl, hvs⟩ := h.cons
    obtain ⟨ws, rfl, hws⟩ := hvs.cons
    rw [readSegments, if_pos hdot, if_neg hname]
  | case6 dot rest hdot =>
    obtain ⟨vs, rfl, hvs⟩ := h.cons
    rw [readSegments.eq_def]
    dsimp only
    rw [if_neg hdot]

/-- A call is read to the end of its arguments. -/
theorem used_of_call (hk : t.kind = .ident) (hparen : (Token.current ts).kind = .openParen) :
    (readExpr (t :: ts)).2 = (readArgs (ts.drop 1)).2 + 2 := by
  rw [readExpr]
  simp only [hk, if_pos hparen]
  cases readArgs (ts.drop 1) with
  | mk answer n => cases answer <;> rfl

/-- A path is read to the end of its segments. -/
theorem used_of_path (hk : t.kind = .ident) (hparen : (Token.current ts).kind ≠ .openParen)
    (hword : ¬((t.text = "true" ∨ t.text = "false") ∧ (Token.current ts).kind ≠ .dot)) :
    (readExpr (t :: ts)).2 = (readSegments ts).2 + 1 := by
  rw [readExpr]
  simp only [hk, if_neg hparen, if_neg hword]
  cases readSegments ts with
  | mk answer n => cases answer <;> rfl

/-- The tokens of an argument, and the line ends behind it. -/
def argLength (ts : List Token) : Nat :=
  (readExpr ts).2 + newlineCount (ts.drop (readExpr ts).2)

/-- Behind an argument and a comma, more arguments are read. -/
theorem readArgs_of_comma {arg : Expr} (hline : t.kind ≠ .newline) (hclose : t.kind ≠ .closeParen)
    (harg : (readExpr (t :: ts)).1 = .ok arg)
    (hcomma : (Token.current ((t :: ts).drop (argLength (t :: ts)))).kind = .comma) :
    readArgs (t :: ts) =
      ((readArgs ((t :: ts).drop (argLength (t :: ts) + 1))).1.map fun more =>
          (arg :: more.1, more.2),
        argLength (t :: ts) + 1 + (readArgs ((t :: ts).drop (argLength (t :: ts) + 1))).2) := by
  unfold argLength at hcomma ⊢
  rw [readArgs, if_neg hline, if_neg hclose]
  cases hread : readExpr (t :: ts) with
  | mk answer k =>
    rw [hread] at harg hcomma
    dsimp only at harg hcomma ⊢
    subst harg
    simp only [if_pos hcomma]
    cases readArgs ((t :: ts).drop (k + newlineCount ((t :: ts).drop k) + 1)) with
    | mk rest m => cases rest <;> rfl

/-- Behind an argument and anything but a comma, the arguments end. -/
theorem readArgs_of_noComma {arg : Expr} (hline : t.kind ≠ .newline)
    (hclose : t.kind ≠ .closeParen) (harg : (readExpr (t :: ts)).1 = .ok arg)
    (hcomma : (Token.current ((t :: ts).drop (argLength (t :: ts)))).kind ≠ .comma) :
    readArgs (t :: ts) =
      if (Token.current ((t :: ts).drop (argLength (t :: ts)))).kind = .closeParen then
        (.ok ([arg], (Token.current ((t :: ts).drop (argLength (t :: ts)))).span),
          argLength (t :: ts) + 1)
      else
        (.error (.unexpected .commaOrParen ((t :: ts).drop (argLength (t :: ts)))),
          argLength (t :: ts)) := by
  unfold argLength at hcomma ⊢
  rw [readArgs, if_neg hline, if_neg hclose]
  cases hread : readExpr (t :: ts) with
  | mk answer k =>
    rw [hread] at harg hcomma
    dsimp only at harg hcomma ⊢
    subst harg
    simp only [if_neg hcomma]

/-- Behind a flaw, no arguments are read. -/
theorem readArgs_of_flaw {flaw : Flaw} (hline : t.kind ≠ .newline) (hclose : t.kind ≠ .closeParen)
    (harg : (readExpr (t :: ts)).1 = .error flaw) :
    readArgs (t :: ts) = (.error flaw, (readExpr (t :: ts)).2) := by
  rw [readArgs, if_neg hline, if_neg hclose]
  cases hread : readExpr (t :: ts) with
  | mk answer k =>
    rw [hread] at harg
    dsimp only at harg
    subst harg
    rfl

/-- An argument is read, and the line ends behind it. -/
theorem argLength_le {arg : Expr} (hline : t.kind ≠ .newline) (hclose : t.kind ≠ .closeParen)
    (harg : (readExpr (t :: ts)).1 = .ok arg) :
    argLength (t :: ts) ≤ (readArgs (t :: ts)).2 := by
  by_cases hcomma : (Token.current ((t :: ts).drop (argLength (t :: ts)))).kind = .comma
  · rw [readArgs_of_comma hline hclose harg hcomma]
    dsimp only
    omega
  · rw [readArgs_of_noComma hline hclose harg hcomma]
    split
    · exact Nat.le_succ _
    · exact Nat.le_refl _

mutual

/-- **The reader of expressions looks one token ahead.** -/
theorem readExpr_agree : ∀ {ts us : List Token}, Agree ((readExpr ts).2 + 1) ts us →
    readExpr us = readExpr ts
  | [], us, h => by rw [h.nil]
  | t :: ts, us, h => by
    obtain ⟨vs, rfl, hvs⟩ := h.cons
    cases hk : t.kind with
    | ident =>
      by_cases hparen : (Token.current ts).kind = .openParen
      · rw [used_of_call hk hparen] at hvs
        have hargs : readArgs (vs.drop 1) = readArgs (ts.drop 1) :=
          readArgs_agree (hvs.drop 1 (by omega))
        rw [readExpr, readExpr, hvs.current, hargs]
        simp only [hk, if_pos hparen]
      · by_cases hword : (t.text = "true" ∨ t.text = "false") ∧ (Token.current ts).kind ≠ .dot
        · have hused : (readExpr (t :: ts)).2 = 1 := by
            rw [readExpr]
            simp only [hk, if_neg hparen, if_pos hword]
          rw [hused] at hvs
          rw [readExpr, readExpr, hvs.current]
          simp only [hk, if_neg hparen, if_pos hword]
        · rw [used_of_path hk hparen hword] at hvs
          rw [readExpr, readExpr, hvs.current, readSegments_agree (hvs.mono (by omega))]
          simp only [hk, if_neg hparen, if_neg hword]
    | quoted | hex | number =>
      rw [readExpr, readExpr]
      simp only [hk]
    | _ =>
      rw [readExpr, readExpr]
      simp only [hk]
      rfl
termination_by ts => 2 * ts.length
decreasing_by simp; omega

theorem readArgs_agree : ∀ {ts us : List Token}, Agree ((readArgs ts).2 + 1) ts us →
    readArgs us = readArgs ts
  | [], us, h => by rw [h.nil]
  | t :: ts, us, h => by
    obtain ⟨vs, rfl, hvs⟩ := h.cons
    by_cases hline : t.kind = .newline
    · have hused : (readArgs (t :: ts)).2 = (readArgs ts).2 + 1 := by
        rw [readArgs, if_pos hline]
      rw [hused] at hvs
      rw [readArgs, readArgs, if_pos hline, if_pos hline, readArgs_agree hvs]
    by_cases hclose : t.kind = .closeParen
    · rw [readArgs, readArgs, if_neg hline, if_neg hline, if_pos hclose, if_pos hclose]
    cases harg : (readExpr (t :: ts)).1 with
    | error flaw =>
      rw [readArgs_of_flaw hline hclose harg] at h
      have hsame : readExpr (t :: vs) = readExpr (t :: ts) := readExpr_agree h
      rw [readArgs_of_flaw hline hclose harg, ← hsame]
      exact readArgs_of_flaw hline hclose (by rw [hsame, harg])
    | ok arg =>
      have hlength := argLength_le hline hclose harg
      have hsame : readExpr (t :: vs) = readExpr (t :: ts) :=
        readExpr_agree (h.mono (by unfold argLength at hlength; omega))
      have hsameLength : argLength (t :: vs) = argLength (t :: ts) := by
        have hlines := (h.drop (readExpr (t :: ts)).2
          (by unfold argLength at hlength; omega)).newlineCount
        rw [argLength, hsame, hlines, argLength]
      have hnext : Token.current ((t :: vs).drop (argLength (t :: ts))) =
          Token.current ((t :: ts).drop (argLength (t :: ts))) :=
        h.current_drop (Nat.lt_succ_of_le hlength)
      have harg' : (readExpr (t :: vs)).1 = .ok arg := by rw [hsame, harg]
      by_cases hcomma : (Token.current ((t :: ts).drop (argLength (t :: ts)))).kind = .comma
      · have hcomma' : (Token.current ((t :: vs).drop (argLength (t :: vs)))).kind = .comma := by
          rw [hsameLength, hnext, hcomma]
        rw [readArgs_of_comma hline hclose harg hcomma] at h
        have hrest : readArgs ((t :: vs).drop (argLength (t :: ts) + 1)) =
            readArgs ((t :: ts).drop (argLength (t :: ts) + 1)) :=
          readArgs_agree (h.drop (argLength (t :: ts) + 1) (by dsimp only; omega))
        rw [readArgs_of_comma hline hclose harg hcomma,
          readArgs_of_comma hline hclose harg' hcomma', hsameLength, hrest]
      · have hcomma' : (Token.current ((t :: vs).drop (argLength (t :: vs)))).kind ≠ .comma := by
          rw [hsameLength, hnext]
          exact hcomma
        have hunexpected := (h.drop (n := 1) (argLength (t :: ts))
          (Nat.succ_le_succ hlength)).unexpected .commaOrParen
        rw [readArgs_of_noComma hline hclose harg hcomma,
          readArgs_of_noComma hline hclose harg' hcomma', hsameLength, hnext, hunexpected]
termination_by ts => 2 * ts.length + 1
decreasing_by all_goals (simp; try omega)

end

/-! ## Attributes -/

/-- The value is read, and whatever else stands on its line. -/
theorem used_readExpr_le (name : Ident) (h : (Token.current ts).kind.endsLine ≠ true) :
    (readExpr ts).2 ≤ (readAttribute name ts).used := by
  rw [readAttribute, if_neg h]
  cases readExpr ts with
  | mk answer k =>
    cases answer with
    | error flaw => exact Nat.le_add_right _ _
    | ok value =>
      dsimp only
      split
      · exact Nat.le_refl _
      · exact Nat.le_add_right _ _

/-- **The reader of attributes looks one token ahead.** -/
theorem readAttribute_agree (name : Ident) (h : Agree ((readAttribute name ts).used + 1) ts us) :
    readAttribute name us = readAttribute name ts := by
  have hcurrent := h.current
  by_cases hnone : (Token.current ts).kind.endsLine = true
  · rw [readAttribute, readAttribute, hcurrent, if_pos hnone, if_pos hnone]
  have hle := used_readExpr_le name hnone
  have hsame : readExpr us = readExpr ts := readExpr_agree (h.mono (Nat.succ_le_succ hle))
  have hnext := h.current_drop (Nat.lt_succ_of_le hle)
  rw [readAttribute, if_neg hnone] at h
  rw [readAttribute, readAttribute, hcurrent, if_neg hnone, if_neg hnone, hsame]
  cases hread : readExpr ts with
  | mk answer k =>
    rw [hread] at h hnext
    cases answer with
    | error flaw =>
      dsimp only at h ⊢
      rw [(h.drop k (Nat.le_of_eq (Nat.add_assoc ..).symm)).lineLength]
    | ok value =>
      dsimp only at h hnext ⊢
      rw [hnext]
      by_cases hend : (Token.current (ts.drop k)).kind.endsLine = true
      · rw [if_pos hend, if_pos hend]
      · rw [if_neg hend] at h
        have hrest : Agree (lineLength (ts.drop k) + 1) (ts.drop k) (us.drop k) :=
          h.drop k (Nat.le_of_eq (Nat.add_assoc ..).symm)
        rw [if_neg hend, if_neg hend, hrest.unexpected, hrest.lineLength]

end ColorTheme
