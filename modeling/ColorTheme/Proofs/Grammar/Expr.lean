import ColorTheme.Proofs.Grammar

/-!
# Expressions are read as the grammar has them

* `isExpr_of_read`, `isArgs_of_read` : what the reader answers is an expression, or the arguments
  of a call, where it says.
* `readExpr_of_isExpr`, `readArgs_of_isArgs` : whatever the grammar has, the reader answers.  A
  path that a dot follows, and a name that a parenthesis follows, would be read on, so an
  expression must have neither behind it.
-/

set_option autoImplicit false

namespace ColorTheme.Grammar

/-! ## What is read follows the grammar -/

/-- A list that does not begin with the end of the file begins with its first token. -/
theorem eq_current_cons {ts : List Token} (h : (Token.current ts).kind ≠ .endOfFile) :
    ts = Token.current ts :: ts.drop 1 := by
  cases ts with
  | nil => exact absurd rfl h
  | cons t ts => rfl

/-- Line ends are dropped to the last. -/
theorem isNewlines_drop (ts : List Token) : IsNewlines ts (ts.drop (newlineCount ts)) := by
  induction ts with
  | nil => exact .none []
  | cons t ts ih =>
    by_cases h : t.kind = .newline
    · have : newlineCount (t :: ts) = newlineCount ts + 1 := by simp [newlineCount, h]
      rw [this, List.drop_succ_cons]
      exact .more h ih
    · have : newlineCount (t :: ts) = 0 := by simp [newlineCount, h]
      rw [this]
      exact .none _

/-- The segments of a path are read as long as a dot and a name follow. -/
theorem isSegments_of_read {ts : List Token} {segments : List Ident} {n : Nat}
    (h : readSegments ts = (.ok segments, n)) : IsSegments ts segments (ts.drop n) := by
  fun_induction readSegments ts generalizing segments n with
  | case1 => cases h; exact .none []
  | case2 => cases h
  | case3 dot hdot name rest hname segs m heq ih =>
    cases h
    exact .more hdot hname (ih heq)
  | case4 => cases h
  | case5 => cases h
  | case6 => cases h; exact .none _

/-- Arguments behind a comma are more arguments; none at all make it a trailing comma. -/
theorem IsArgs.toMore {comma : Token} {ts rest : List Token} {args : List Expr} {close : Span}
    (hcomma : comma.kind = .comma) (h : IsArgs ts args close rest) :
    IsMoreArgs (comma :: ts) args close rest := by
  cases h with
  | none lines kind => exact .trailing hcomma lines kind
  | some before first behind more => exact .more hcomma before first behind more

theorem IsArgs.newline {t : Token} {ts rest : List Token} {args : List Expr} {close : Span}
    (ht : t.kind = .newline) (h : IsArgs ts args close rest) : IsArgs (t :: ts) args close rest := by
  cases h with
  | none lines kind => exact .none (.more ht lines) kind
  | some before first behind more => exact .some (.more ht before) first behind more

mutual

theorem isExpr_of_read : ∀ {ts : List Token} {e : Expr} {n : Nat}, readExpr ts = (.ok e, n) →
    IsExpr ts e (ts.drop n)
  | [], e, n, h => by simp [readExpr] at h
  | t :: ts, e, n, h => by
    rw [readExpr] at h
    split at h
    · rename_i hk; cases h; exact .quoted ts hk
    · rename_i hk; cases h; exact .hex ts hk
    · rename_i hk; cases h; exact .number ts hk
    · rename_i hk
      split at h
      · rename_i hparen
        split at h
        · rename_i args close m heq
          cases h
          have hcons : ts = _ := eq_current_cons (by rw [hparen]; decide)
          have inner := isArgs_of_read heq
          rw [List.drop_drop] at inner
          rw [hcons]
          exact .call hk hparen (by simpa [Nat.add_comm] using inner)
        · cases h
      · rename_i hparen
        split at h
        · rename_i hword
          cases h
          exact .truth hk ⟨hword.1, hparen, hword.2⟩
        · rename_i hword
          split at h
          · rename_i segments m heq
            cases h
            exact .path hk (fun hw => hword ⟨hw.1, hw.2.2⟩) (isSegments_of_read heq)
          · cases h
    · cases h
termination_by ts => 2 * ts.length
decreasing_by simp; omega

theorem isArgs_of_read : ∀ {ts : List Token} {args : List Expr} {close : Span} {n : Nat},
    readArgs ts = (.ok (args, close), n) → IsArgs ts args close (ts.drop n)
  | [], args, close, n, h => by simp [readArgs] at h
  | t :: ts, args, close, n, h => by
    rw [readArgs] at h
    split at h
    · rename_i hk
      split at h
      rename_i result m heq
      cases h
      exact (isArgs_of_read heq).newline hk
    · split at h
      · rename_i hk
        cases h
        exact .none (.none _) hk
      · split at h
        · cases h
        · rename_i arg m heq
          have first := isExpr_of_read heq
          have behind := isNewlines_drop ((t :: ts).drop m)
          rw [List.drop_drop] at behind
          dsimp only at h
          split at h
          · rename_i hcomma
            have hcons := eq_current_cons (by rw [hcomma]; decide)
            rw [List.drop_drop] at hcons
            split at h
            · rename_i others close' k heq'
              cases h
              have more := (isArgs_of_read heq').toMore hcomma
              rw [← hcons, List.drop_drop] at more
              exact .some (.none _) first behind more
            · cases h
          · split at h
            · rename_i hclose
              cases h
              have hcons := eq_current_cons (by rw [hclose]; decide)
              rw [List.drop_drop] at hcons
              rw [hcons] at behind
              exact .some (.none _) first behind (.close _ hclose)
            · cases h
termination_by ts => 2 * ts.length + 1
decreasing_by all_goals (simp; try omega)

end


/-! ## What follows the grammar is read -/

variable {ts next rest : List Token}

/-- `read` answers with `value` where `ts` begin, and leaves `rest`. -/
def Reads {α : Type} (read : List Token → ReadResult α) (ts : List Token) (value : α)
    (rest : List Token) : Prop :=
  ∃ n, read ts = (.ok value, n) ∧ ts.drop n = rest

/-- The tokens at which an expression may begin. -/
def StartsExpr (ts : List Token) : Prop :=
  (Token.current ts).kind ∈ [TokenKind.quoted, .hex, .number, .ident]

theorem IsExpr.starts {e : Expr} (h : IsExpr ts e rest) : StartsExpr ts := by
  cases h with
  | quoted _ kind | hex _ kind | number _ kind | truth kind _ | path kind _ _ | call kind _ _ =>
    simp [StartsExpr, kind]

theorem StartsExpr.eq_cons (h : StartsExpr ts) :
    ∃ t others, ts = t :: others ∧ t.kind ≠ .newline ∧ t.kind ≠ .closeParen := by
  cases ts with
  | nil => simp [StartsExpr, Token.current] at h
  | cons t others =>
    refine ⟨t, others, rfl, ?_, ?_⟩ <;> intro hk <;> simp [StartsExpr, hk] at h

theorem drop_newlineCount (h : IsNewlines ts rest) (hr : (Token.current rest).kind ≠ .newline) :
    ts.drop (newlineCount ts) = rest := by
  induction h with
  | none ts =>
    cases ts with
    | nil => rfl
    | cons t ts =>
      rw [Token.current_cons] at hr
      have : newlineCount (t :: ts) = 0 := by simp [newlineCount, hr]
      rw [this, List.drop_zero]
  | @more t ts rest kind others ih =>
    have : newlineCount (t :: ts) = newlineCount ts + 1 := by simp [newlineCount, kind]
    rw [this, List.drop_succ_cons, ih hr]

theorem IsNewlines.head_of (h : IsNewlines ts rest) :
    (Token.current ts).kind = .newline ∨ ts = rest := by
  cases h with
  | none => exact .inr rfl
  | more kind _ => exact .inl kind

theorem readSegments_of_isSegments {segments : List Ident} (h : IsSegments ts segments rest)
    (hr : (Token.current rest).kind ≠ .dot) : Reads readSegments ts segments rest := by
  induction h with
  | none ts =>
    refine ⟨0, ?_, rfl⟩
    cases ts with
    | nil => rw [readSegments]
    | cons t ts =>
      rw [Token.current_cons] at hr
      rw [readSegments.eq_def]
      simp only [if_neg hr]
  | more dotKind nameKind others ih =>
    obtain ⟨n, hread, hdrop⟩ := ih hr
    refine ⟨n + 2, ?_, hdrop⟩
    rw [readSegments, if_pos dotKind]
    simp only [nameKind, if_true, hread]

/-- What `readArgs` answers from behind line ends it answers from before them. -/
theorem readArgs_of_isNewlines {args : List Expr} {close : Span} (h : IsNewlines ts next)
    (hread : Reads readArgs next (args, close) rest) : Reads readArgs ts (args, close) rest := by
  induction h with
  | none => exact hread
  | more kind others ih =>
    obtain ⟨n, heq, hdrop⟩ := ih hread
    refine ⟨n + 1, ?_, hdrop⟩
    rw [readArgs, if_pos kind, heq]

/-- What stands behind an argument is read as the grammar has it. -/
def ReadsMore (ts : List Token) (args : List Expr) (close : Span) (rest : List Token) : Prop :=
  ((Token.current ts).kind = .closeParen ∧ args = [] ∧ close = (Token.current ts).span ∧
      ts.drop 1 = rest) ∨
    ((Token.current ts).kind = .comma ∧ Reads readArgs (ts.drop 1) (args, close) rest)

/-- Neither a dot nor a parenthesis stands behind an argument, so it is not read any further. -/
theorem ReadsMore.follow {others : List Token} {args : List Expr} {close : Span}
    (h : ReadsMore others args close rest) (hlines : IsNewlines next others) :
    (Token.current next).kind ≠ .dot ∧ (Token.current next).kind ≠ .openParen := by
  rcases hlines.head_of with hk | rfl
  · simp [hk]
  · rcases h with ⟨hk, _⟩ | ⟨hk, _⟩ <;> simp [hk]

/-- An argument and what stands behind it are read together. -/
theorem readArgs_cons {others : List Token} {arg : Expr} {args : List Expr} {close : Span}
    (hstart : StartsExpr ts) (hread : Reads readExpr ts arg next) (hlines : IsNewlines next others)
    (hmore : ReadsMore others args close rest) : Reads readArgs ts (arg :: args, close) rest := by
  obtain ⟨t, ts, rfl, hnewline, hclose⟩ := hstart.eq_cons
  obtain ⟨n, hread, rfl⟩ := hread
  have hothers : (t :: ts).drop (n + newlineCount ((t :: ts).drop n)) = others := by
    rw [← List.drop_drop]
    refine drop_newlineCount hlines ?_
    rcases hmore with ⟨hk, _⟩ | ⟨hk, _⟩ <;> simp [hk]
  unfold Reads
  rw [readArgs, if_neg hnewline, if_neg hclose, hread]
  dsimp only
  rw [hothers]
  rcases hmore with ⟨hk, rfl, rfl, rfl⟩ | ⟨hk, m, hargs, rfl⟩
  · rw [if_neg (by simp [hk]), if_pos hk]
    exact ⟨_, rfl, by rw [← List.drop_drop, hothers]⟩
  · rw [if_pos hk, ← List.drop_drop, hothers, hargs]
    exact ⟨_, rfl, by rw [← List.drop_drop, ← List.drop_drop, hothers]⟩

mutual

theorem readExpr_of_isExpr : ∀ {ts : List Token} {e : Expr} {rest : List Token},
    IsExpr ts e rest → (Token.current rest).kind ≠ .dot → (Token.current rest).kind ≠ .openParen →
      Reads readExpr ts e rest
  | _, _, _, .quoted ts kind, _, _ => ⟨1, by rw [readExpr]; simp [kind], rfl⟩
  | _, _, _, .hex ts kind, _, _ => ⟨1, by rw [readExpr]; simp [kind], rfl⟩
  | _, _, _, .number ts kind, _, _ => ⟨1, by rw [readExpr]; simp [kind], rfl⟩
  | _, _, _, .truth kind word, _, _ => by
    refine ⟨1, ?_, rfl⟩
    rw [readExpr]
    simp only [kind, if_neg word.2.1, if_pos (And.intro word.1 word.2.2)]
  | _, _, rest, @IsExpr.path t ts _ segments kind word others, hdot, hparen => by
    obtain ⟨n, hread, hdrop⟩ := readSegments_of_isSegments others hdot
    refine ⟨n + 1, ?_, hdrop⟩
    have hnext : (Token.current ts).kind ≠ .openParen := by
      cases others with
      | none => exact hparen
      | more dotKind _ _ => simp [dotKind]
    rw [readExpr]
    simp only [kind, if_neg hnext, hread]
    rw [if_neg (fun h => word ⟨h.1, hnext, h.2⟩)]
  | _, _, _, .call nameKind parenKind inner, _, _ => by
    obtain ⟨n, hread, hdrop⟩ := readArgs_of_isArgs inner
    refine ⟨n + 2, ?_, hdrop⟩
    rw [readExpr]
    simp only [nameKind, Token.current_cons, parenKind, if_true, List.drop_succ_cons, List.drop_zero,
      hread]

theorem readArgs_of_isArgs : ∀ {ts : List Token} {args : List Expr} {close : Span}
    {rest : List Token}, IsArgs ts args close rest → Reads readArgs ts (args, close) rest
  | _, _, _, _, .none lines kind => by
    refine readArgs_of_isNewlines lines ⟨1, ?_, rfl⟩
    rw [readArgs, if_neg (by simp [kind]), if_pos kind]
  | _, _, _, _, .some before first behind more => by
    have hmore := readsMore_of_isMoreArgs more
    obtain ⟨hdot, hparen⟩ := hmore.follow behind
    have hread := readExpr_of_isExpr first hdot hparen
    exact readArgs_of_isNewlines before (readArgs_cons first.starts hread behind hmore)

theorem readsMore_of_isMoreArgs : ∀ {ts : List Token} {args : List Expr} {close : Span}
    {rest : List Token}, IsMoreArgs ts args close rest → ReadsMore ts args close rest
  | _, _, _, _, .close rest kind => .inl ⟨kind, rfl, rfl, rfl⟩
  | _, _, _, _, .trailing commaKind lines kind => by
    refine .inr ⟨commaKind, readArgs_of_isNewlines lines ⟨1, ?_, rfl⟩⟩
    rw [readArgs, if_neg (by simp [kind]), if_pos kind]
  | _, _, _, _, .more commaKind before first behind more => by
    have hmore := readsMore_of_isMoreArgs more
    obtain ⟨hdot, hparen⟩ := hmore.follow behind
    have hread := readExpr_of_isExpr first hdot hparen
    exact .inr ⟨commaKind,
      readArgs_of_isNewlines before (readArgs_cons first.starts hread behind hmore)⟩

end

end ColorTheme.Grammar
