import ColorTheme.Proofs.Grammar

/-!
# How far a phrase of the grammar goes

* `IsExpr.leadsTo`, `IsBody.leadsTo` : a phrase consists of tokens at the head of the list, and
  the end of the file is not among them.
* `tokenize_leadsTo` : the tokens of a source end with the end of the file and hold it only there.
* `LeadsTo.eq_stop` : so behind a phrase, whoever sees the end of the file has read all the rest.
-/

set_option autoImplicit false

namespace ColorTheme.Grammar

variable {t : Token} {ts next rest : List Token}

/-- `ts` begin with tokens whose kinds satisfy `P`, and go on with `rest`. -/
def Through (P : TokenKind → Prop) (ts rest : List Token) : Prop :=
  ∃ read, ts = read ++ rest ∧ ∀ t ∈ read, P t.kind

namespace Through

variable {P Q : TokenKind → Prop}

theorem refl (ts : List Token) : Through P ts ts := ⟨[], rfl, by simp⟩

theorem cons {k : TokenKind} (hk : t.kind = k) (hP : P k) (h : Through P ts rest) :
    Through P (t :: ts) rest := by
  obtain ⟨read, rfl, hread⟩ := h
  exact ⟨t :: read, rfl, List.forall_mem_cons.2 ⟨by rwa [hk], hread⟩⟩

theorem trans (h₁ : Through P ts next) (h₂ : Through P next rest) : Through P ts rest := by
  obtain ⟨a, rfl, ha⟩ := h₁
  obtain ⟨b, rfl, hb⟩ := h₂
  exact ⟨a ++ b, (List.append_assoc ..).symm, List.forall_mem_append.2 ⟨ha, hb⟩⟩

theorem mono (h : Through P ts rest) (hPQ : ∀ k, P k → Q k) : Through Q ts rest := by
  obtain ⟨read, rfl, hread⟩ := h
  exact ⟨read, rfl, fun t ht => hPQ _ (hread t ht)⟩

end Through

/-- Tokens of this kind can stand in a value: they are no braces and not the end of the file. -/
def InValue (kind : TokenKind) : Prop :=
  kind ∉ [TokenKind.openBrace, .closeBrace, .invalid, .endOfFile]

instance : DecidablePred InValue := fun _ => inferInstanceAs (Decidable (¬ _))

theorem IsNewlines.inValue (h : IsNewlines ts rest) : Through InValue ts rest := by
  induction h with
  | none ts => exact .refl ts
  | more kind _ ih => exact .cons kind (by decide) ih

theorem IsSegments.inValue {segments : List Ident} (h : IsSegments ts segments rest) :
    Through InValue ts rest := by
  induction h with
  | none ts => exact .refl ts
  | more dotKind nameKind _ ih => exact .cons dotKind (by decide) (.cons nameKind (by decide) ih)

mutual

theorem IsExpr.inValue : ∀ {ts : List Token} {e : Expr} {rest : List Token},
    IsExpr ts e rest → Through InValue ts rest
  | _, _, _, .quoted ts kind => .cons kind (by decide) (.refl ts)
  | _, _, _, .hex ts kind => .cons kind (by decide) (.refl ts)
  | _, _, _, .number ts kind => .cons kind (by decide) (.refl ts)
  | _, _, _, .truth kind _ => .cons kind (by decide) (.refl _)
  | _, _, _, .path kind _ others => .cons kind (by decide) others.inValue
  | _, _, _, .call nameKind parenKind inner =>
    .cons nameKind (by decide) (.cons parenKind (by decide) inner.inValue)

theorem IsArgs.inValue : ∀ {ts : List Token} {args : List Expr} {close : Span}
    {rest : List Token}, IsArgs ts args close rest → Through InValue ts rest
  | _, _, _, _, .none lines kind => lines.inValue.trans (.cons kind (by decide) (.refl _))
  | _, _, _, _, .some before first behind more =>
    before.inValue.trans (first.inValue.trans (behind.inValue.trans more.inValue))

theorem IsMoreArgs.inValue : ∀ {ts : List Token} {args : List Expr} {close : Span}
    {rest : List Token}, IsMoreArgs ts args close rest → Through InValue ts rest
  | _, _, _, _, .close rest kind => .cons kind (by decide) (.refl rest)
  | _, _, _, _, .trailing commaKind lines kind =>
    .cons commaKind (by decide) (lines.inValue.trans (.cons kind (by decide) (.refl _)))
  | _, _, _, _, .more commaKind before first behind more =>
    .cons commaKind (by decide)
      (before.inValue.trans (first.inValue.trans (behind.inValue.trans more.inValue)))

end

/-- `ts` begin with tokens of the document, and not its end, and go on with `rest`. -/
def LeadsTo (ts rest : List Token) : Prop :=
  ∃ read, ts = read ++ rest ∧ ∀ t ∈ read, t.kind ≠ .endOfFile

theorem Through.leadsTo (h : Through InValue ts rest) : LeadsTo ts rest :=
  mono (Q := (· ≠ .endOfFile)) h fun k hk hend => hk (by rw [hend]; decide)

theorem LeadsTo.refl (ts : List Token) : LeadsTo ts ts := Through.refl (P := (· ≠ .endOfFile)) ts

theorem LeadsTo.cons {k : TokenKind} (hk : t.kind = k) (hne : k ≠ .endOfFile)
    (h : LeadsTo ts rest) : LeadsTo (t :: ts) rest :=
  Through.cons (P := (· ≠ .endOfFile)) hk hne h

theorem LeadsTo.trans (h₁ : LeadsTo ts next) (h₂ : LeadsTo next rest) : LeadsTo ts rest :=
  Through.trans (P := (· ≠ .endOfFile)) h₁ h₂

theorem IsNewlines.leadsTo (h : IsNewlines ts rest) : LeadsTo ts rest := h.inValue.leadsTo

theorem IsExpr.leadsTo {e : Expr} (h : IsExpr ts e rest) : LeadsTo ts rest := h.inValue.leadsTo

theorem IsBody.leadsTo {items : Body} (h : IsBody ts items rest) : LeadsTo ts rest := by
  induction h with
  | none ts => exact .refl ts
  | newline kind _ ih => exact .cons kind (by decide) ih
  | assignment nameKind signKind expr _ _ ih =>
    exact .cons nameKind (by decide) (.cons signKind (by decide) (expr.leadsTo.trans ih))
  | block nameKind braceKind _ closeKind _ ihInner ih =>
    exact .cons nameKind (by decide) (.cons braceKind (by decide)
      (ihInner.trans (.cons closeKind (by decide) ih)))

theorem LeadsTo.subset (h : LeadsTo ts rest) : ∀ t ∈ rest, t ∈ ts := by
  obtain ⟨read, rfl, -⟩ := h
  exact fun t ht => List.mem_append_right read ht

theorem LeadsTo.suffix (h : LeadsTo ts rest) : rest <:+ ts := by
  obtain ⟨read, rfl, -⟩ := h
  exact List.suffix_append read rest

theorem IsMoreArgs.close_mem : ∀ {ts : List Token} {args : List Expr} {close : Span}
    {rest : List Token}, IsMoreArgs ts args close rest → ∃ t ∈ ts, close = t.span
  | _, _, _, _, .close rest kind => ⟨_, List.mem_cons_self, rfl⟩
  | _, _, _, _, .trailing commaKind lines kind =>
    ⟨_, List.mem_cons_of_mem _ (lines.leadsTo.subset _ List.mem_cons_self), rfl⟩
  | _, _, _, _, .more commaKind before first behind others => by
    obtain ⟨t, ht, heq⟩ := others.close_mem
    have hto := before.leadsTo.trans (first.leadsTo.trans behind.leadsTo)
    exact ⟨t, List.mem_cons_of_mem _ (hto.subset t ht), heq⟩

/-- The parenthesis that closes a call is one of its tokens. -/
theorem IsArgs.close_mem {args : List Expr} {close : Span} (h : IsArgs ts args close rest) :
    ∃ t ∈ ts, close = t.span := by
  cases h with
  | none lines kind => exact ⟨_, lines.leadsTo.subset _ List.mem_cons_self, rfl⟩
  | some before first behind more =>
    obtain ⟨t, ht, heq⟩ := more.close_mem
    have hto := before.leadsTo.trans (first.leadsTo.trans behind.leadsTo)
    exact ⟨t, hto.subset t ht, heq⟩

/-! ## The end of the file -/

theorem measure_ne_endOfFile (c : Char) (cs : List Char) :
    (Piece.measure c cs).1 ≠ some .endOfFile := by
  unfold Piece.measure
  repeat' split
  all_goals simp

theorem kind_ne_endOfFile_of_mem_pieces {cs : List Char} {p : Piece} (h : p ∈ pieces cs) :
    p.kind ≠ some .endOfFile := by
  fun_induction pieces cs with
  | case1 => cases h
  | case2 c cs ih =>
    rcases List.mem_cons.1 h with rfl | h
    · exact measure_ne_endOfFile c cs
    · exact ih h

theorem kind_ne_endOfFile_of_mem_locate {ps : List Piece} {offset : Nat}
    (hps : ∀ p ∈ ps, p.kind ≠ some .endOfFile) (h : t ∈ locate offset ps) :
    t.kind ≠ .endOfFile := by
  fun_induction locate offset ps with
  | case1 => cases h
  | case2 offset p ps stop kind hkind ih =>
    rcases List.mem_cons.1 h with rfl | h
    · intro hk
      exact hps p List.mem_cons_self (by rw [hkind, ← hk])
    · exact ih (fun q hq => hps q (List.mem_cons_of_mem p hq)) h
  | case3 offset p ps stop hkind ih =>
    exact ih (fun q hq => hps q (List.mem_cons_of_mem p hq)) h

/-- The end of the file is the last of the tokens of a source, and no other of them. -/
theorem tokenize_leadsTo (source : String) :
    ∃ stop : Token, stop.kind = .endOfFile ∧ LeadsTo (tokenize source) [stop] :=
  ⟨_, rfl, locate 0 (pieces source.toList), rfl, fun _ ht =>
    kind_ne_endOfFile_of_mem_locate (fun _ hp => kind_ne_endOfFile_of_mem_pieces hp) ht⟩

/-- Where only the last token is the end of the file, whoever sees it is at the last token. -/
theorem LeadsTo.eq_stop {stop : Token} (h : LeadsTo ts [stop]) (hstop : stop.kind = .endOfFile)
    (hrest : LeadsTo ts rest) (hcurrent : (Token.current rest).kind = .endOfFile) :
    rest = [stop] := by
  obtain ⟨a, rfl, ha⟩ := h
  obtain ⟨b, hab, hb⟩ := hrest
  rcases List.append_eq_append_iff.1 hab with ⟨c, rfl, hc⟩ | ⟨c, rfl, rfl⟩
  · cases c with
    | nil => exact hc.symm
    | cons x c =>
      obtain ⟨rfl, -⟩ := List.cons.inj hc
      exact absurd hstop (hb stop (by simp))
  · cases c with
    | nil => rfl
    | cons x c => exact absurd hcurrent (ha x (by simp))

end ColorTheme.Grammar
