import ColorTheme.Proofs.Token.Pattern

/-!
# Pieces do not depend on the text far behind them

A piece is settled by its own characters and the one behind it, or the two behind it where the
first is a point or a backslash.

* `measure_local` : what is cut off in front of another character, or reaches up to it, is the same
  whatever stands behind that character.
* `pieces_local` : so are all pieces in front of it.
* `locate_append`, `locate_move` : the tokens among pieces one behind the other, and among pieces
  that begin at another place.
* `exists_piece` : a token is one of the pieces, and it stands where the pieces before it end.
-/

set_option autoImplicit false

namespace ColorTheme

section

variable {p : Char → Bool} {c q : Char} {cs rest : List Char}

/-! ## One piece -/

theorem runLength_local (h : runLength p (cs ++ q :: rest) ≤ cs.length) (rest' : List Char) :
    runLength p (cs ++ q :: rest') = runLength p (cs ++ q :: rest) := by
  unfold runLength at h ⊢
  induction cs with
  | nil =>
    have hq : ¬ p q = true := by
      intro hq
      simp [hq] at h
    rw [List.nil_append, List.nil_append, List.takeWhile_cons_of_neg hq,
      List.takeWhile_cons_of_neg hq]
  | cons c cs ih =>
    rw [List.cons_append, List.cons_append]
    rw [List.cons_append] at h
    by_cases hc : p c = true
    · rw [List.takeWhile_cons_of_pos hc, List.length_cons, List.length_cons] at h
      rw [List.takeWhile_cons_of_pos hc, List.takeWhile_cons_of_pos hc, List.length_cons,
        List.length_cons, ih (Nat.le_of_succ_le_succ h)]
    · rw [List.takeWhile_cons_of_neg hc, List.takeWhile_cons_of_neg hc]

theorem drop_append_cons {n : Nat} (h : n ≤ cs.length) (q : Char) (rest : List Char) :
    (cs ++ q :: rest).drop n = cs.drop n ++ q :: rest := List.drop_append_of_le_length h

theorem numberLength_local (hq : q ≠ '.') (h : numberLength (cs ++ q :: rest) ≤ cs.length)
    (rest' : List Char) : numberLength (cs ++ q :: rest') = numberLength (cs ++ q :: rest) := by
  have hwhole : runLength Char.isDigit (cs ++ q :: rest) ≤ cs.length := by
    refine Nat.le_trans ?_ h
    unfold numberLength
    dsimp only
    split
    · split <;> omega
    · exact Nat.le_refl _
  unfold numberLength at h ⊢
  rw [runLength_local hwhole]
  generalize runLength Char.isDigit (cs ++ q :: rest) = whole at h hwhole ⊢
  dsimp only at h ⊢
  rw [drop_append_cons hwhole] at h ⊢
  rw [drop_append_cons hwhole]
  -- a fraction is read only if all of it stands in front of `q`
  have hlength : (cs.drop whole).length = cs.length - whole := List.length_drop
  generalize cs.drop whole = front at h hlength ⊢
  match front with
  | [] => simp [hq]
  | c :: front =>
    by_cases hpoint : c = '.'
    · subst hpoint
      cases front with
      | nil =>
        have hdigit : ¬ q.isDigit = true := by
          intro hdigit
          simp only [List.singleton_append, List.length_singleton, if_pos hdigit] at h hlength
          omega
        simp only [List.singleton_append, if_neg hdigit]
      | cons d front =>
        by_cases hdigit : d.isDigit = true
        · simp only [List.cons_append, List.length_cons, if_pos hdigit] at h hlength ⊢
          have hfront : runLength Char.isDigit (front ++ q :: rest) ≤ front.length := by omega
          rw [runLength_local hfront]
        · simp only [List.cons_append, if_neg hdigit]
    · simp [hpoint]

theorem quotedLength_local (hq : q ≠ '\\') (h : (quotedLength (cs ++ q :: rest)).1 ≤ cs.length)
    (rest' : List Char) : quotedLength (cs ++ q :: rest') = quotedLength (cs ++ q :: rest) := by
  have hplain {c : Char} (cs : List Char) (hquote : c ≠ '"') (hline : c ≠ '\n')
      (hescape : c ≠ '\\') :
      quotedLength (c :: cs) = ((quotedLength cs).1 + 1, (quotedLength cs).2) :=
    quotedLength.eq_6 c cs hquote hline (fun h => absurd h hescape) (fun _ h => absurd h hescape)
      (fun _ _ h => absurd h hescape)
  induction cs using quotedLength.induct with
  | case1 cs => rfl
  | case2 cs => rfl
  | case3 =>
    by_cases hline : q = '\n'
    · subst hline
      rfl
    · simp [quotedLength.eq_5 q _ hline] at h
  | case4 cs => rfl
  | case5 c cs hc ih =>
    simp only [List.cons_append, quotedLength.eq_5 c _ hc] at h ⊢
    rw [ih (Nat.le_of_add_le_add_right h)]
  | case6 c cs hquote hline hlast hstuck hescape ih =>
    have hc : c ≠ '\\' := by
      rintro rfl
      cases cs with
      | nil => exact hlast rfl rfl
      | cons d ds => exact hescape d ds rfl rfl
    rw [List.cons_append, hplain _ hquote hline hc] at h
    rw [List.cons_append, List.cons_append, hplain _ hquote hline hc, hplain _ hquote hline hc,
      ih (Nat.le_of_add_le_add_right h)]
  | case7 =>
    by_cases hline : q = '\n'
    · subst hline
      rfl
    · by_cases hquote : q = '"'
      · subst hquote
        rfl
      · simp [hplain rest hquote hline hq] at h

theorem commentLength?_local {n : Nat} (h : commentLength? (cs ++ q :: rest) = some n)
    (hn : n ≤ cs.length) (rest' : List Char) : commentLength? (cs ++ q :: rest') = some n := by
  obtain ⟨comment, behind, hcut, rfl, hcomment⟩ := commentLength?_eq_some h
  have htake : comment ++ ['*', '/'] = cs.take (comment.length + 2) := by
    have hlength : comment.length + 2 = (comment ++ ['*', '/']).length := by simp
    have hfront : (cs ++ q :: rest).take (comment.length + 2) = cs.take (comment.length + 2) :=
      List.take_append_of_le_length hn
    rw [← hfront, hcut, hlength, List.take_left]
  rw [← List.take_append_drop (comment.length + 2) cs, ← htake, List.append_assoc]
  exact commentLength?_append hcomment _

/-- A text in front of another character has a first character. -/
theorem exists_head (cs : List Char) (q : Char) :
    ∃ d, ∀ rest, ∃ behind, cs ++ q :: rest = d :: behind := by
  cases cs with
  | nil => exact ⟨q, fun rest => ⟨rest, rfl⟩⟩
  | cons d cs => exact ⟨d, fun rest => ⟨cs ++ q :: rest, rfl⟩⟩

theorem measure_slash_local (h : (Piece.measure '/' (cs ++ q :: rest)).2 ≤ cs.length)
    (rest' : List Char) :
    Piece.measure '/' (cs ++ q :: rest') = Piece.measure '/' (cs ++ q :: rest) := by
  unfold Piece.measure at h ⊢
  simp only at h ⊢
  cases cs with
  | nil =>
    -- no comment can begin here, for `q` would belong to it
    have hslash : q ≠ '/' := by
      rintro rfl
      simp [runLength] at h
    have hstar : q ≠ '*' := by
      rintro rfl
      simp only [List.nil_append] at h
      split at h <;> simp at h
    simp [hslash, hstar]
  | cons d cs =>
    by_cases hslash : d = '/'
    · subst hslash
      simp only [List.cons_append] at h ⊢
      rw [← List.cons_append] at h ⊢
      rw [← List.cons_append, runLength_local h]
    · by_cases hstar : d = '*'
      · subst hstar
        simp only [List.cons_append] at h ⊢
        split at h
        · rename_i n hn
          rw [commentLength?_local hn (Nat.le_of_succ_le_succ h)]
        · rw [List.length_cons, List.length_append, List.length_cons] at h
          simp only [List.length_cons] at h
          omega
      · simp [hslash, hstar]

/-- **What is cut off in front of another character is the same whatever stands behind that
character**, unless that is a point or a backslash. -/
theorem measure_local (hpoint : q ≠ '.') (hescape : q ≠ '\\')
    (h : (Piece.measure c (cs ++ q :: rest)).2 ≤ cs.length) (rest' : List Char) :
    Piece.measure c (cs ++ q :: rest') = Piece.measure c (cs ++ q :: rest) := by
  obtain ⟨d, hd⟩ := exists_head cs q
  obtain ⟨behind, hbehind⟩ := hd rest
  obtain ⟨behind', hbehind'⟩ := hd rest'
  by_cases hslash : c = '/'
  · subst hslash
    exact measure_slash_local h rest'
  unfold Piece.measure at h ⊢
  split at h
  any_goals rfl
  · dsimp only at h ⊢
    rw [quotedLength_local hescape h]
  · exact absurd rfl hslash
  · simp only [hbehind, hbehind'] at h ⊢
    rw [← hbehind] at h
    rw [← hbehind, ← hbehind']
    split at h
    · rename_i hblank
      rw [if_pos hblank, if_pos hblank, runLength_local h]
    · rename_i hblank
      rw [if_neg hblank, if_neg hblank]
      split at h
      · rename_i hdigit
        rw [if_pos hdigit, if_pos hdigit, runLength_local h]
      · rename_i hdigit
        rw [if_neg hdigit, if_neg hdigit]
  · simp only [hbehind, hbehind'] at h ⊢
    rw [← hbehind] at h
    rw [← hbehind, ← hbehind']
    split at h
    · rename_i hdigit
      rw [if_pos hdigit, if_pos hdigit, numberLength_local hpoint h]
    · rename_i hdigit
      rw [if_neg hdigit, if_neg hdigit]
  · split at h
    · rename_i hgap
      rw [if_pos hgap, if_pos hgap, runLength_local h]
    · rename_i hgap
      rw [if_neg hgap, if_neg hgap]
      split at h
      · rename_i hdigit
        have hnumber := IsDecimal.length_le (.whole ⟨by simp, by simp [hdigit]⟩ : IsDecimal [c])
        have hrest : 1 ≤ numberLength (c :: (cs ++ q :: rest)) := hnumber _
        have hle : numberLength (c :: cs ++ q :: rest) ≤ (c :: cs).length := by
          rw [List.cons_append, List.length_cons]
          omega
        rw [if_pos hdigit, if_pos hdigit, ← List.cons_append, ← List.cons_append,
          numberLength_local hpoint hle]
      · rename_i hdigit
        rw [if_neg hdigit, if_neg hdigit]
        split at h
        · rename_i hstart
          rw [if_pos hstart, if_pos hstart, runLength_local h]
        · rename_i hstart
          rw [if_neg hstart, if_neg hstart]

/-! ## All pieces -/

theorem text_of_pieces {ps : List Piece} {front behind : List Char}
    (h : pieces (front ++ behind) = ps ++ pieces behind) : (ps.map Piece.text).flatten = front := by
  have hflatten := congrArg (fun ps => (ps.map Piece.text).flatten) h
  simp only [List.map_append, List.flatten_append, flatten_pieces] at hflatten
  exact (List.append_cancel_right hflatten).symm

/-- **The pieces in front of a character do not depend on what stands behind it**, unless it is a
point or a backslash. -/
theorem pieces_local (hpoint : q ≠ '.') (hescape : q ≠ '\\') {ps : List Piece}
    (h : pieces (cs ++ q :: rest) = ps ++ pieces (q :: rest)) (rest' : List Char) :
    pieces (cs ++ q :: rest') = ps ++ pieces (q :: rest') := by
  induction ps generalizing cs with
  | nil => rw [← text_of_pieces h, List.map_nil, List.flatten_nil, List.nil_append, List.nil_append]
  | cons p ps ih =>
    have htext := text_of_pieces h
    rw [List.map_cons, List.flatten_cons] at htext
    cases cs with
    | nil =>
      have hp : p ∈ pieces ([] ++ q :: rest) := by
        rw [h]
        exact List.mem_cons_self
      exact absurd (List.append_eq_nil_iff.1 htext).1 (text_ne_nil_of_mem_pieces hp)
    | cons c cs =>
      rw [List.cons_append, pieces, List.cons_append, List.cons.injEq] at h
      obtain ⟨rfl, hrest⟩ := h
      have hinside : (Piece.measure c (cs ++ q :: rest)).2 ≤ cs.length := by
        have hlength := congrArg List.length htext
        rw [List.length_append, List.length_cons, List.length_cons, List.length_take,
          List.length_append, List.length_cons] at hlength
        omega
      rw [drop_append_cons hinside] at hrest
      rw [List.cons_append, pieces, measure_local hpoint hescape hinside, drop_append_cons hinside,
        List.take_append_of_le_length hinside, List.take_append_of_le_length hinside, ih hrest]
      rfl

end

theorem locate_append (offset : Nat) (ps qs : List Piece) :
    locate offset (ps ++ qs) =
      locate offset ps ++ locate (offset + byteLength (ps.map Piece.text).flatten) qs := by
  induction ps generalizing offset with
  | nil => rfl
  | cons p ps ih =>
    rw [List.cons_append, locate, locate, List.map_cons, List.flatten_cons, byteLength_append,
      ← Nat.add_assoc]
    cases p.kind with
    | none => exact ih _
    | some kind =>
      dsimp only
      rw [ih, List.cons_append]

/-- Pieces that begin at another place are the same tokens, moved. -/
theorem locate_move {move : Nat → Nat} {offset offset' : Nat}
    (hmove : ∀ n, move (offset + n) = offset' + n) (ps : List Piece) :
    locate offset' ps = (locate offset ps).map fun t =>
      ⟨t.kind, t.text, ⟨move t.span.start, move t.span.stop⟩⟩ := by
  induction ps generalizing offset offset' with
  | nil => rfl
  | cons p ps ih =>
    have hlater : ∀ n, move (offset + byteLength p.text + n) = offset' + byteLength p.text + n :=
      fun n => by rw [Nat.add_assoc, hmove, Nat.add_assoc]
    have hrest := ih hlater
    rw [locate, locate]
    cases p.kind with
    | none => exact hrest
    | some kind =>
      dsimp only
      rw [List.map_cons, hrest, hmove, ← Nat.add_zero offset, hmove, Nat.add_zero]
      rfl

/-! ## Tokens and pieces -/

section

variable {cs : List Char} {offset : Nat} {ps : List Piece} {t : Token}

/-- A token is one of the pieces. -/
theorem exists_piece (h : t ∈ locate offset ps) :
    ∃ front p behind, ps = front ++ p :: behind ∧ p.kind = some t.kind ∧
      p.text = t.text.toList ∧
      t.span = ⟨offset + byteLength (front.map Piece.text).flatten,
        offset + byteLength (front.map Piece.text).flatten + byteLength p.text⟩ := by
  fun_induction locate offset ps with
  | case1 => cases h
  | case2 offset p ps stop kind hkind ih =>
    rcases List.mem_cons.1 h with rfl | h
    · exact ⟨[], p, ps, rfl, hkind, String.toList_ofList.symm, rfl⟩
    · obtain ⟨front, q, behind, rfl, hq, htext, hspan⟩ := ih h
      refine ⟨p :: front, q, behind, rfl, hq, htext, ?_⟩
      rw [hspan, List.map_cons, List.flatten_cons, byteLength_append, ← Nat.add_assoc]
  | case3 offset p ps stop hkind ih =>
    obtain ⟨front, q, behind, rfl, hq, htext, hspan⟩ := ih h
    refine ⟨p :: front, q, behind, rfl, hq, htext, ?_⟩
    rw [hspan, List.map_cons, List.flatten_cons, byteLength_append, ← Nat.add_assoc]

theorem stop_locate (h : t ∈ locate offset ps) :
    t.span.start ≤ t.span.stop ∧ t.span.stop ≤ offset + byteLength (ps.map Piece.text).flatten := by
  obtain ⟨front, p, behind, rfl, -, -, hspan⟩ := exists_piece h
  rw [hspan, List.map_append, List.flatten_append, List.map_cons, List.flatten_cons,
    byteLength_append, byteLength_append]
  dsimp only
  omega

/-- The pieces from some place on are those of the text there. -/
theorem eq_pieces_of_append {front behind : List Piece} (h : pieces cs = front ++ behind) :
    behind = pieces (behind.map Piece.text).flatten := by
  induction front generalizing cs with
  | nil =>
    rw [List.nil_append] at h
    rw [← h, flatten_pieces]
  | cons p front ih =>
    cases cs with
    | nil => simp [pieces] at h
    | cons c cs =>
      rw [pieces, List.cons_append, List.cons.injEq] at h
      exact ih h.2

end

end ColorTheme
