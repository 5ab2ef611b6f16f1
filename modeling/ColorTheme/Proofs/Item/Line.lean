import ColorTheme.Proofs.Grammar.Expr
import ColorTheme.Proofs.Item.Turn

/-!
# What is read of a line

Tokens up to the end of their line, without braces and without a parenthesis that opens a call, are
read in one turn.

* `IsLine`, `IsAttribute` : such a line, and one that is an attribute.
* `ReadsLine` : what may come of it.
* `readsLine_of_turn` : nothing else does.
-/

set_option autoImplicit false

namespace ColorTheme

open Grammar (IsExpr)

/-- Tokens of this kind can stand inside a line that opens and closes nothing. -/
def InLine (kind : TokenKind) : Prop :=
  kind ∉ [TokenKind.newline, .endOfFile, .openBrace, .closeBrace, .openParen]

instance : DecidablePred InLine := fun _ => inferInstanceAs (Decidable (¬ _))

/-- A line that is not empty, and opens and closes nothing. -/
structure IsLine (run : List Token) : Prop where
  nonempty : run ≠ []
  kinds : ∀ t ∈ run, InLine t.kind

/-- What stands behind a line: a line end or the end of the file. -/
def EndsRun (rest : List Token) : Prop :=
  (Token.current rest).kind = .newline ∨ (Token.current rest).kind = .endOfFile

/-- `IDENT = expr`, with the attribute. -/
inductive IsAttribute : List Token → Attribute → Prop
  | mk {name sign : Token} {ts : List Token} {value : Expr} (nameKind : name.kind = .ident)
      (signKind : sign.kind = .equals) (expr : IsExpr ts value []) :
      IsAttribute (name :: sign :: ts) ⟨.ofToken name, value, name.span.merge value.span⟩

/-- What a turn reads of a line: all of its tokens, at most one attribute and no block, and at most
one flaw; and there is no flaw if and only if the line is an attribute, which is read then. -/
structure ReadsLine (run : List Token) (x : Reading) : Prop where
  used : x.used = run.length
  items : x.items = [] ∨ ∃ a, x.items = [.assignment a]
  flaws : x.flaws.length ≤ 1
  flawless : x.flaws = [] ↔ ∃ a, IsAttribute run a
  assignment : ∀ a, IsAttribute run a → x.items = [.assignment a]

variable {last : Span} {nested : Bool} {t : Token} {ts vs run rest : List Token} {x : Reading}

/-! ## The end of a line -/

theorem InLine.not_endsLine {kind : TokenKind} (h : InLine kind) : kind.endsLine = false := by
  revert h
  cases kind <;> decide

theorem EndsRun.endsLine (h : EndsRun rest) : (Token.current rest).kind.endsLine = true := by
  rcases h with h | h <;> rw [h] <;> rfl

theorem EndsRun.ne {kind : TokenKind} (h : EndsRun rest) (hline : kind ≠ .newline)
    (hend : kind ≠ .endOfFile) : (Token.current rest).kind ≠ kind := by
  rcases h with h | h <;> rw [h]
  · exact hline.symm
  · exact hend.symm

/-- Behind some tokens of a line, the next one is of the line or it ends it. -/
theorem current_append (vs : List Token) (rest : List Token) :
    vs = [] ∧ Token.current (vs ++ rest) = Token.current rest ∨
      vs ≠ [] ∧ Token.current (vs ++ rest) = Token.current vs := by
  cases vs with
  | nil => exact .inl ⟨rfl, rfl⟩
  | cons t vs => exact .inr ⟨nofun, rfl⟩

/-- What may stand behind a line does not go on with it, nor does the end of the tokens. -/
theorem kind_current_append (hend : EndsRun rest) {kind : TokenKind} (hline : kind ≠ .newline)
    (hfile : kind ≠ .endOfFile) :
    (Token.current (vs ++ rest)).kind = kind ↔ (Token.current vs).kind = kind := by
  rcases current_append vs rest with ⟨rfl, heq⟩ | ⟨-, heq⟩
  · rw [heq]
    exact iff_of_false (hend.ne hline hfile) hfile.symm
  · rw [heq]

/-- In a line nothing is opened. -/
theorem kind_current_ne {kind : TokenKind} (hvs : ∀ t ∈ vs, InLine t.kind) (hkind : ¬ InLine kind)
    (hfile : kind ≠ .endOfFile) : (Token.current vs).kind ≠ kind := by
  cases vs with
  | nil => exact hfile.symm
  | cons t vs =>
    rintro rfl
    exact hkind (hvs t List.mem_cons_self)

theorem lineLength_append (hvs : ∀ t ∈ vs, InLine t.kind) (hend : EndsRun rest) :
    lineLength (vs ++ rest) = vs.length := by
  have hkinds : ∀ t ∈ vs, (!t.kind.endsLine) = true := fun t ht => by
    rw [(hvs t ht).not_endsLine]
    rfl
  have hrest : rest.takeWhile (!·.kind.endsLine) = [] := by
    cases rest with
    | nil => rfl
    | cons t rest =>
      have hfirst : t.kind.endsLine = true := hend.endsLine
      rw [List.takeWhile_cons_of_neg (by simp [hfirst])]
  rw [lineLength, List.takeWhile_append_of_pos hkinds, hrest, List.append_nil]

/-- What stops at the end of the line has read all of it. -/
theorem length_le_of_endsLine {n : Nat} (hvs : ∀ t ∈ vs, InLine t.kind)
    (h : (Token.current ((vs ++ rest).drop n)).kind.endsLine = true) : vs.length ≤ n := by
  by_contra hlt
  have hlt := Nat.lt_of_not_le hlt
  rw [List.drop_append_of_le_length (Nat.le_of_lt hlt), List.drop_eq_getElem_cons hlt] at h
  have hin := (hvs _ (List.getElem_mem hlt)).not_endsLine
  rw [List.cons_append, Token.current_cons, hin] at h
  cases h

/-! ## A value without calls -/

/-- A path ends with its line. -/
theorem readSegments_append (hend : EndsRun rest) :
    readSegments (vs ++ rest) = readSegments vs := by
  fun_induction readSegments vs with
  | case1 =>
    cases rest with
    | nil => rw [List.append_nil, readSegments]
    | cons t rest =>
      have hdot : t.kind ≠ .dot := hend.ne (by decide) (by decide)
      rw [List.nil_append, readSegments.eq_def]
      dsimp only
      rw [if_neg hdot]
  | case2 dot hdot =>
    cases rest with
    | nil => rw [List.append_nil, readSegments, if_pos hdot]
    | cons t rest =>
      have hname : t.kind ≠ .ident := hend.ne (by decide) (by decide)
      rw [List.cons_append, List.nil_append, readSegments, if_pos hdot, if_neg hname]
  | case3 dot hdot name others hname segments n heq ih =>
    rw [List.cons_append, List.cons_append, readSegments, if_pos hdot, if_pos hname, ih, heq]
  | case4 dot hdot name others hname flaw n heq ih =>
    rw [List.cons_append, List.cons_append, readSegments, if_pos hdot, if_pos hname, ih, heq]
  | case5 dot hdot name others hname =>
    rw [List.cons_append, List.cons_append, readSegments, if_pos hdot, if_neg hname]
  | case6 dot others hdot =>
    rw [List.cons_append, readSegments.eq_def]
    dsimp only
    rw [if_neg hdot]

theorem used_readSegments_le (ts : List Token) : (readSegments ts).2 ≤ ts.length := by
  fun_induction readSegments ts <;> simp_all

/-- An expression ends with its line. -/
theorem readExpr_append (hne : vs ≠ []) (hvs : ∀ t ∈ vs, InLine t.kind) (hend : EndsRun rest) :
    readExpr (vs ++ rest) = readExpr vs := by
  cases vs with
  | nil => exact absurd rfl hne
  | cons t vs =>
    have hparen : (Token.current vs).kind ≠ .openParen :=
      kind_current_ne (List.forall_mem_cons.1 hvs).2 (by decide) (by decide)
    have hparen' : (Token.current (vs ++ rest)).kind ≠ .openParen :=
      mt (kind_current_append hend (by decide) (by decide)).1 hparen
    have hdot : (Token.current (vs ++ rest)).kind = .dot ↔ (Token.current vs).kind = .dot :=
      kind_current_append hend (by decide) (by decide)
    rw [List.cons_append, readExpr, readExpr]
    cases hk : t.kind with
    | ident => simp only [if_neg hparen, if_neg hparen', hdot, ne_eq, readSegments_append hend]
    | quoted | hex | number => rfl
    | _ => rfl

theorem used_readExpr_le_length (hvs : ∀ t ∈ vs, InLine t.kind) :
    (readExpr vs).2 ≤ vs.length := by
  cases vs with
  | nil =>
    rw [readExpr]
    exact Nat.le_refl _
  | cons t vs =>
    have hparen : (Token.current vs).kind ≠ .openParen :=
      kind_current_ne (List.forall_mem_cons.1 hvs).2 (by decide) (by decide)
    cases hk : t.kind with
    | ident =>
      by_cases hword : (t.text = "true" ∨ t.text = "false") ∧ (Token.current vs).kind ≠ .dot
      · rw [readExpr]
        simp only [hk, if_neg hparen, if_pos hword]
        exact Nat.succ_pos _
      · rw [used_of_path hk hparen hword]
        exact Nat.succ_le_succ (used_readSegments_le vs)
    | _ =>
      rw [readExpr]
      simp only [hk]
      simp

/-! ## An attribute without calls -/

theorem items_readAttribute (name : Ident) (ts : List Token) :
    (readAttribute name ts).items = [] ∨ ∃ a, (readAttribute name ts).items = [.assignment a] := by
  unfold readAttribute
  split
  · exact .inl rfl
  · split
    · exact .inl rfl
    · dsimp only
      split <;> exact .inr ⟨_, rfl⟩

theorem length_flaws_readAttribute (name : Ident) (ts : List Token) :
    (readAttribute name ts).flaws.length ≤ 1 := by
  unfold readAttribute
  split
  · exact Nat.le_refl _
  · split
    · exact Nat.le_refl _
    · dsimp only
      split
      · exact Nat.zero_le _
      · exact Nat.le_refl _

/-- A line that is not empty does not begin with its end. -/
theorem not_endsLine_current_append (hne : vs ≠ []) (hvs : ∀ t ∈ vs, InLine t.kind) :
    (Token.current (vs ++ rest)).kind.endsLine ≠ true := by
  cases vs with
  | nil => exact absurd rfl hne
  | cons t vs =>
    rw [List.cons_append, Token.current_cons, (hvs t List.mem_cons_self).not_endsLine]
    exact Bool.false_ne_true

/-- The attribute is read to the end of the line. -/
theorem used_readAttribute (name : Ident) (hvs : ∀ t ∈ vs, InLine t.kind) (hend : EndsRun rest) :
    (readAttribute name (vs ++ rest)).used = vs.length := by
  refine Nat.le_antisymm ?_ (length_le_of_endsLine hvs (endsLine_drop_readAttribute name _))
  by_cases hne : vs = []
  · rw [hne, readAttribute, if_pos (by exact hend.endsLine)]
    exact Nat.le_refl _
  · have hle := used_readExpr_le_length hvs
    rw [readAttribute, if_neg (not_endsLine_current_append hne hvs), readExpr_append hne hvs hend]
    cases hread : readExpr vs with
    | mk answer n =>
      rw [hread] at hle
      have hrest : lineLength ((vs ++ rest).drop n) = vs.length - n := by
        rw [List.drop_append_of_le_length hle, lineLength_append
          (fun t ht => hvs t (List.mem_of_mem_drop ht)) hend, List.length_drop]
      cases answer with
      | error flaw =>
        dsimp only at hle ⊢
        omega
      | ok value =>
        dsimp only at hle ⊢
        split <;> dsimp only <;> omega

/-- An expression is read to the end of the line, and without a flaw. -/
theorem readAttribute_of_expr (name : Ident) {value : Expr} (hvs : ∀ t ∈ vs, InLine t.kind)
    (hend : EndsRun rest) (h : IsExpr vs value []) :
    readAttribute name (vs ++ rest) =
      ⟨[.assignment ⟨name, value, name.span.merge value.span⟩], [], vs.length⟩ := by
  have hne : vs ≠ [] := by
    rintro rfl
    exact absurd h.starts (by unfold Grammar.StartsExpr; decide)
  obtain ⟨n, hread, hdrop⟩ := Grammar.readExpr_of_isExpr h (by decide) (by decide)
  have hlength : n = vs.length := by
    have hle := used_readExpr_le_length hvs
    rw [hread] at hle
    exact Nat.le_antisymm hle (List.drop_eq_nil_iff.1 hdrop)
  have hrest : (Token.current ((vs ++ rest).drop n)).kind.endsLine = true := by
    rw [hlength, List.drop_left]
    exact hend.endsLine
  rw [readAttribute, if_neg (not_endsLine_current_append hne hvs), readExpr_append hne hvs hend,
    hread]
  dsimp only
  rw [if_pos hrest, hlength]

/-- What is read without a flaw is an expression, to the end of the line. -/
theorem isExpr_of_flaws (name : Ident) (hvs : ∀ t ∈ vs, InLine t.kind) (hend : EndsRun rest)
    (h : (readAttribute name (vs ++ rest)).flaws = []) : ∃ value, IsExpr vs value [] := by
  by_cases hne : vs = []
  · rw [hne, readAttribute, if_pos (by exact hend.endsLine)] at h
    cases h
  rw [readAttribute, if_neg (not_endsLine_current_append hne hvs), readExpr_append hne hvs hend] at h
  cases hread : readExpr vs with
  | mk answer n =>
    rw [hread] at h
    cases answer with
    | error flaw => cases h
    | ok value =>
      dsimp only at h
      split at h
      · rename_i hstop
        have hexpr := Grammar.isExpr_of_read hread
        rw [List.drop_eq_nil_of_le (length_le_of_endsLine hvs hstop)] at hexpr
        exact ⟨value, hexpr⟩
      · cases h

/-! ## One turn for a line -/

/-- A line that is no attribute is passed over, with one flaw. -/
theorem ReadsLine.of_flaw {flaw : Flaw} {n : Nat} (hused : n = run.length)
    (hrun : ∀ a, ¬ IsAttribute run a) : ReadsLine run ⟨[], [flaw], n⟩ where
  used := hused
  items := .inl rfl
  flaws := Nat.le_refl _
  flawless := ⟨nofun, fun ⟨a, ha⟩ => absurd ha (hrun a)⟩
  assignment a ha := absurd ha (hrun a)

/-- A line with a name and an equals sign is read as an attribute. -/
theorem readsLine_of_readAttribute {name sign : Token} (hvs : ∀ t ∈ vs, InLine t.kind)
    (hend : EndsRun rest) (nameKind : name.kind = .ident) (signKind : sign.kind = .equals)
    (h : readAttribute (.ofToken name) (vs ++ rest) = x) :
    ReadsLine (name :: sign :: vs) ⟨x.items, x.flaws, 2 + x.used⟩ := by
  subst h
  constructor
  case used =>
    dsimp only
    rw [used_readAttribute _ hvs hend, Nat.add_comm]
    rfl
  case items => exact items_readAttribute _ _
  case flaws => exact length_flaws_readAttribute _ _
  case flawless =>
    constructor
    · intro hflaws
      obtain ⟨value, hvalue⟩ := isExpr_of_flaws _ hvs hend hflaws
      exact ⟨_, .mk nameKind signKind hvalue⟩
    · rintro ⟨_, ⟨-, -, hvalue⟩⟩
      rw [readAttribute_of_expr _ hvs hend hvalue]
  case assignment =>
    rintro _ ⟨-, -, hvalue⟩
    rw [readAttribute_of_expr _ hvs hend hvalue]
    rfl

/-- **A line is read in one turn**, whatever stands on it and wherever it stands. -/
theorem readsLine_of_turn (hline : IsLine run) (hend : EndsRun rest)
    (h : Turn last nested (run ++ rest) x) : ReadsLine run x := by
  obtain ⟨t, vs, rfl⟩ := List.exists_cons_of_ne_nil hline.nonempty
  obtain ⟨ht, hvs⟩ := List.forall_mem_cons.1 hline.kinds
  have hbrace : (Token.current (vs ++ rest)).kind ≠ .openBrace :=
    mt (kind_current_append hend (by decide) (by decide)).1
      (kind_current_ne hvs (by decide) (by decide))
  have hlength : 1 + lineLength (vs ++ rest) = (t :: vs).length := by
    rw [lineLength_append hvs hend, Nat.add_comm, List.length_cons]
  rw [List.cons_append] at h
  generalize hts : vs ++ rest = ts at h hbrace hlength
  -- a line is no line end and no brace, and it opens no block, so three cases are left
  cases h with
  | newline kind =>
    rw [kind] at ht
    exact absurd ht (by decide)
  | unmatched kind =>
    rw [kind] at ht
    exact absurd ht (by decide)
  | @assignment _ _ sign ts value nameKind signKind read =>
    cases vs with
    | nil =>
      rw [List.nil_append] at hts
      rw [hts] at hend
      exact absurd signKind (hend.ne (by decide) (by decide))
    | cons s vs =>
      obtain ⟨rfl, rfl⟩ := List.cons.inj hts
      exact readsLine_of_readAttribute (List.forall_mem_cons.1 hvs).2 hend nameKind signKind read
  | closed nameKind braceKind read closeKind => exact absurd braceKind hbrace
  | unclosed nameKind braceKind read noClose => exact absurd braceKind hbrace
  | noSign nameKind noEquals noBrace =>
    refine .of_flaw hlength fun a ha => ?_
    cases ha with
    | mk nameKind signKind expr =>
      rw [← hts] at noEquals
      exact noEquals signKind
  | noItem noEnd noLine noClose noName =>
    refine .of_flaw hlength fun a ha => ?_
    cases ha with
    | mk nameKind signKind expr => exact noName nameKind

/-- And there is such a turn. -/
theorem exists_turn_of_isLine (hline : IsLine run) (nested : Bool) (last : Span)
    (rest : List Token) : ∃ x, Turn last nested (run ++ rest) x := by
  refine (stops_or_turn nested last (run ++ rest)).resolve_left ?_
  obtain ⟨t, vs, rfl⟩ := List.exists_cons_of_ne_nil hline.nonempty
  have ht := hline.kinds t List.mem_cons_self
  rintro (hk | ⟨-, hk⟩)
  · have hk : t.kind = .endOfFile := hk
    rw [hk] at ht
    exact absurd ht (by decide)
  · have hk : t.kind = .closeBrace := hk
    rw [hk] at ht
    exact absurd ht (by decide)

end ColorTheme
