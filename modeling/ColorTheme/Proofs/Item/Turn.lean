import ColorTheme.Proofs.Item.Extent
import ColorTheme.Proofs.Item.Lookahead
import ColorTheme.Proofs.Item.Retouch

/-!
# The turns of the reader

A body is read in turns.  Each turn reads a line end, an attribute, a block or something that is
neither, and leaves the reader where the next turn begins.

* `Turn` : what is read in one turn.
* `Turn.readBody_eq`, `stops_or_turn` : the reader makes one turn after the other.
* `Arrives` : a turn begins here, at this depth.
* `Turn.map`, `Turn.agree`, `readBody_agree`, `readBody_of_endsAlike` : what a turn depends on.
-/

set_option autoImplicit false

namespace ColorTheme

open Grammar (Stops)

/-- In one turn the reader reads the items, the flaws and the number of tokens that are given. -/
inductive Turn (last : Span) : Bool → List Token → Reading → Prop
  | newline {nested : Bool} {t : Token} {ts : List Token} (kind : t.kind = .newline) :
      Turn last nested (t :: ts) ⟨[], [], 1⟩
  | unmatched {t : Token} {ts : List Token} (kind : t.kind = .closeBrace) :
      Turn last false (t :: ts) ⟨[], [⟨.unmatchedBrace, t.span⟩], 1⟩
  | assignment {nested : Bool} {name sign : Token} {ts : List Token} {value : Reading}
      (nameKind : name.kind = .ident) (signKind : sign.kind = .equals)
      (read : readAttribute (.ofToken name) ts = value) :
      Turn last nested (name :: sign :: ts) ⟨value.items, value.flaws, 2 + value.used⟩
  | closed {nested : Bool} {name brace : Token} {ts : List Token} {inner : Reading}
      (nameKind : name.kind = .ident) (braceKind : brace.kind = .openBrace)
      (read : readBody true last ts = inner)
      (closeKind : (Token.current (ts.drop inner.used)).kind = .closeBrace) :
      Turn last nested (name :: brace :: ts)
        ⟨[.block (.ofToken name) inner.items
            (name.span.merge (Token.current (ts.drop inner.used)).span)],
          inner.flaws, 3 + inner.used⟩
  | unclosed {nested : Bool} {name brace : Token} {ts : List Token} {inner : Reading}
      (nameKind : name.kind = .ident) (braceKind : brace.kind = .openBrace)
      (read : readBody true last ts = inner)
      (noClose : (Token.current (ts.drop inner.used)).kind ≠ .closeBrace) :
      Turn last nested (name :: brace :: ts)
        ⟨[.block (.ofToken name) inner.items (name.span.merge last)],
          inner.flaws ++ [⟨.unclosedBlock name.text, brace.span⟩], 2 + inner.used⟩
  | noSign {nested : Bool} {name : Token} {ts : List Token} (nameKind : name.kind = .ident)
      (noEquals : (Token.current ts).kind ≠ .equals)
      (noBrace : (Token.current ts).kind ≠ .openBrace) :
      Turn last nested (name :: ts)
        ⟨[], [.unexpected (.signAfter name.text) ts], 1 + lineLength ts⟩
  | noItem {nested : Bool} {t : Token} {ts : List Token} (noEnd : t.kind ≠ .endOfFile)
      (noLine : t.kind ≠ .newline) (noClose : t.kind ≠ .closeBrace) (noName : t.kind ≠ .ident) :
      Turn last nested (t :: ts) ⟨[], [.unexpected .item (t :: ts)], 1 + lineLength ts⟩

/-- The reader that reads the body `ts` begins a turn at `place`, in a body that is nested or
not. -/
inductive Arrives (last : Span) : Bool → List Token → Bool → List Token → Prop
  | here (nested : Bool) (ts : List Token) : Arrives last nested ts nested ts
  | next {nested depth : Bool} {ts place : List Token} {x : Reading} (turn : Turn last nested ts x)
      (behind : Arrives last nested (ts.drop x.used) depth place) :
      Arrives last nested ts depth place
  | inside {nested depth : Bool} {name brace : Token} {ts place : List Token}
      (nameKind : name.kind = .ident) (braceKind : brace.kind = .openBrace)
      (body : Arrives last true ts depth place) :
      Arrives last nested (name :: brace :: ts) depth place

variable {last : Span} {nested depth : Bool} {t : Token} {ts us place : List Token} {x : Reading}

/-! ## One turn after the other -/

theorem drop_add_two (t u : Token) (ts : List Token) (n : Nat) :
    (t :: u :: ts).drop (2 + n) = ts.drop n := by
  rw [Nat.add_comm, List.drop_succ_cons, List.drop_succ_cons]

/-- **The reader makes a turn and goes on behind it.** -/
theorem Turn.readBody_eq (h : Turn last nested ts x) :
    readBody nested last ts =
      .after x.items x.flaws x.used (readBody nested last (ts.drop x.used)) := by
  cases h with
  | newline kind => exact readBody_of_newline kind
  | unmatched kind => exact readBody_false_of_closeBrace kind
  | assignment nameKind signKind read =>
    rw [readBody_of_equals nameKind (by exact signKind), drop_add_two, Nat.add_comm 1, List.drop_succ_cons,
      List.drop_succ_cons, List.drop_zero, read]
  | @closed _ name brace ts inner nameKind braceKind read closeKind =>
    have hread : readBody true last ((brace :: ts).drop 1) = inner := read
    have hclose : (brace :: ts).drop (1 + inner.used) = ts.drop inner.used := by
      rw [Nat.add_comm, List.drop_succ_cons]
    have hbehind : (brace :: ts).drop (2 + inner.used) =
        (name :: brace :: ts).drop (3 + inner.used) := by
      rw [Nat.add_comm 3, List.drop_succ_cons, Nat.add_comm 2]
    rw [readBody_of_closed nameKind (by exact braceKind) (by rw [hread, hclose]; exact closeKind), hread, hclose,
      hbehind]
  | @unclosed _ name brace ts inner nameKind braceKind read noClose =>
    have hread : readBody true last ((brace :: ts).drop 1) = inner := read
    have hbehind : (brace :: ts).drop (1 + inner.used) = ts.drop inner.used := by
      rw [Nat.add_comm, List.drop_succ_cons]
    rw [readBody_of_unclosed nameKind (by exact braceKind) (by rw [hread, hbehind]; exact noClose), hread,
      hbehind, drop_add_two]
    rfl
  | noSign nameKind noEquals noBrace =>
    rw [readBody_of_noSign nameKind noEquals noBrace, Nat.add_comm 1, List.drop_succ_cons]
  | noItem noEnd noLine noClose noName =>
    rw [readBody_of_noItem noEnd noLine noClose noName, Nat.add_comm 1, List.drop_succ_cons]

theorem Turn.used_pos (h : Turn last nested ts x) : 0 < x.used := by
  cases h <;> dsimp only <;> omega

theorem Turn.length_lt (h : Turn last nested ts x) : (ts.drop x.used).length < ts.length := by
  have hpos := h.used_pos
  have hcons : 0 < ts.length := by cases h <;> exact Nat.succ_pos _
  rw [List.length_drop]
  omega

theorem readBody_of_stops (h : Stops nested ts) : readBody nested last ts = ⟨[], [], 0⟩ := by
  cases ts with
  | nil => rw [readBody]
  | cons t ts =>
    rcases h with hk | ⟨rfl, hk⟩
    · exact readBody_of_endOfFile hk
    · exact readBody_true_of_closeBrace hk

/-- **The reader stops, or it makes another turn.** -/
theorem stops_or_turn (nested : Bool) (last : Span) (ts : List Token) :
    Stops nested ts ∨ ∃ x, Turn last nested ts x := by
  cases ts with
  | nil => exact .inl (.inl rfl)
  | cons t ts =>
    cases hk : t.kind with
    | endOfFile => exact .inl (.inl hk)
    | newline => exact .inr ⟨_, .newline hk⟩
    | closeBrace =>
      cases nested with
      | true => exact .inl (.inr ⟨rfl, hk⟩)
      | false => exact .inr ⟨_, .unmatched hk⟩
    | ident =>
      right
      by_cases hequals : (Token.current ts).kind = .equals
      · have hcons : ts = _ := Grammar.eq_current_cons (by rw [hequals]; decide)
        rw [hcons]
        exact ⟨_, .assignment hk hequals rfl⟩
      by_cases hbrace : (Token.current ts).kind = .openBrace
      · have hcons : ts = _ := Grammar.eq_current_cons (by rw [hbrace]; decide)
        rw [hcons]
        by_cases hclose : (Token.current ((ts.drop 1).drop
            (readBody true last (ts.drop 1)).used)).kind = .closeBrace
        · exact ⟨_, .closed hk hbrace rfl hclose⟩
        · exact ⟨_, .unclosed hk hbrace rfl hclose⟩
      · exact ⟨_, .noSign hk hequals hbrace⟩
    | _ => exact .inr ⟨_, .noItem (by rw [hk]; decide) (by rw [hk]; decide) (by rw [hk]; decide)
        (by rw [hk]; decide)⟩

/-- **Induction over the turns.**  What holds where the reader stops, and before a turn if it holds
behind it and for all bodies inside, holds for all bodies. -/
theorem turn_induction (last : Span) {motive : Bool → List Token → Prop}
    (stop : ∀ {nested ts}, Stops nested ts → motive nested ts)
    (turn : ∀ {nested ts x}, Turn last nested ts x →
      (∀ inner, inner.length < ts.length → motive true inner) →
      motive nested (ts.drop x.used) → motive nested ts)
    (nested : Bool) (ts : List Token) : motive nested ts := by
  rcases stops_or_turn nested last ts with hstop | ⟨x, hx⟩
  · exact stop hstop
  · have hlt := hx.length_lt
    exact turn hx (fun inner hinner => turn_induction last stop turn true inner)
      (turn_induction last stop turn nested (ts.drop x.used))
termination_by ts.length
decreasing_by all_goals assumption

/-- A place where a turn begins is at the end of the tokens. -/
theorem Arrives.suffix (h : Arrives last nested ts depth place) : place <:+ ts := by
  induction h with
  | here => exact List.suffix_refl _
  | next turn behind ih => exact ih.trans (List.drop_suffix _ _)
  | inside nameKind braceKind body ih =>
    exact ih.trans ((List.suffix_cons _ _).trans (List.suffix_cons _ _))

theorem Arrives.trans {inner : Bool} {us vs : List Token} (h : Arrives last nested ts depth us)
    (hus : Arrives last depth us inner vs) : Arrives last nested ts inner vs := by
  induction h with
  | here => exact hus
  | next turn behind ih => exact .next turn (ih hus)
  | inside nameKind braceKind body ih => exact .inside nameKind braceKind (ih hus)

/-! ## Other places -/

/-- **A turn commutes with retouching.** -/
theorem Turn.map (r : Retouch) (h : Turn last nested ts x) :
    Turn (r.span last) nested (ts.map r.token) (r.reading x) := by
  cases h with
  | newline kind => exact .newline kind
  | unmatched kind => exact .unmatched kind
  | @assignment _ name sign ts value nameKind signKind read =>
    have hread : readAttribute (.ofToken (r.token name)) (ts.map r.token) = r.reading value := by
      rw [r.ident_ofToken nameKind, r.readAttribute_map, read]
    exact .assignment (by exact nameKind) (by exact signKind) hread
  | @closed _ name brace ts inner nameKind braceKind read closeKind =>
    have hread : readBody true (r.span last) (ts.map r.token) = r.reading inner := by
      rw [r.readBody_map, read]
    have hclose : Token.current ((ts.map r.token).drop (r.reading inner).used) =
        r.token (Token.current (ts.drop inner.used)) := by
      rw [r.used_reading, ← List.map_drop, r.current_map]
    have hturn : Turn (r.span last) nested (r.token name :: r.token brace :: ts.map r.token) _ :=
      .closed nameKind braceKind hread (by rw [hclose]; exact closeKind)
    rw [hclose, r.ident_ofToken nameKind] at hturn
    rw [Retouch.reading, Retouch.items, Retouch.items, Retouch.item, r.span_merge]
    exact hturn
  | @unclosed _ name brace ts inner nameKind braceKind read noClose =>
    have hread : readBody true (r.span last) (ts.map r.token) = r.reading inner := by
      rw [r.readBody_map, read]
    have hclose : Token.current ((ts.map r.token).drop (r.reading inner).used) =
        r.token (Token.current (ts.drop inner.used)) := by
      rw [r.used_reading, ← List.map_drop, r.current_map]
    have hturn : Turn (r.span last) nested (r.token name :: r.token brace :: ts.map r.token) _ :=
      .unclosed nameKind braceKind hread (by rw [hclose]; exact noClose)
    rw [r.ident_ofToken nameKind, r.text_of_ne (by rw [nameKind]; decide)
      (by rw [nameKind]; decide)] at hturn
    rw [Retouch.reading, Retouch.items, Retouch.items, Retouch.item, r.span_merge, List.map_append]
    exact hturn
  | @noSign _ name ts nameKind noEquals noBrace =>
    have hturn : Turn (r.span last) nested (r.token name :: ts.map r.token) _ :=
      .noSign nameKind (by rw [r.current_map]; exact noEquals)
        (by rw [r.current_map]; exact noBrace)
    rw [r.unexpected_map, r.lineLength_map, r.text_of_ne (by rw [nameKind]; decide)
      (by rw [nameKind]; decide)] at hturn
    exact hturn
  | @noItem _ t ts noEnd noLine noClose noName =>
    have hturn : Turn (r.span last) nested (r.token t :: ts.map r.token) _ :=
      .noItem noEnd noLine noClose noName
    rw [← List.map_cons, r.unexpected_map, r.lineLength_map] at hturn
    exact hturn

/-! ## Other tokens further on -/

theorem endsLine_drop_lineLength (ts : List Token) :
    (Token.current (ts.drop (lineLength ts))).kind.endsLine = true := by
  induction ts with
  | nil => rfl
  | cons t ts ih =>
    by_cases hend : t.kind.endsLine = true
    · have hlength : lineLength (t :: ts) = 0 := by simp [lineLength, hend]
      rw [hlength]
      exact hend
    · have hlength : lineLength (t :: ts) = lineLength ts + 1 := by simp [lineLength, hend]
      rw [hlength]
      exact ih

theorem endsLine_drop_readAttribute (name : Ident) (ts : List Token) :
    (Token.current (ts.drop (readAttribute name ts).used)).kind.endsLine = true := by
  unfold readAttribute
  split
  · rename_i hnone
    exact hnone
  · split
    · rename_i flaw n hread
      dsimp only
      rw [← List.drop_drop]
      exact endsLine_drop_lineLength _
    · rename_i value n hread
      dsimp only
      split
      · rename_i hend
        exact hend
      · dsimp only
        rw [← List.drop_drop]
        exact endsLine_drop_lineLength _

theorem Agree.cons_cons {n : Nat} {u : Token} (h : Agree (2 + n) (t :: u :: ts) us) :
    ∃ vs, us = t :: u :: vs ∧ Agree n ts vs := by
  rw [Nat.add_comm] at h
  obtain ⟨vs, rfl, hvs⟩ := h.cons
  obtain ⟨ws, rfl, hws⟩ := hvs.cons
  exact ⟨ws, rfl, hws⟩

/-- A turn looks ahead only where it stops at the end of a line.  Of the bodies inside it is known
already that they are read alike. -/
theorem Turn.agree_of (h : Turn last nested ts x) (hagree : Agree x.used ts us)
    (hnext : (Token.current (ts.drop x.used)).kind.endsLine = true → Agree (x.used + 1) ts us)
    (hinner : ∀ {inner others : List Token}, inner.length < ts.length →
      Agree ((readBody true last inner).used + 1) inner others →
      readBody true last others = readBody true last inner) :
    Turn last nested us x := by
  cases h with
  | newline kind =>
    obtain ⟨vs, rfl, -⟩ := hagree.cons
    exact .newline kind
  | unmatched kind =>
    obtain ⟨vs, rfl, -⟩ := hagree.cons
    exact .unmatched kind
  | @assignment _ name sign ts value nameKind signKind read =>
    subst read
    dsimp only at hnext
    rw [drop_add_two, Nat.add_assoc] at hnext
    obtain ⟨vs, rfl, hvs⟩ := (hnext (endsLine_drop_readAttribute _ ts)).cons_cons
    exact .assignment nameKind signKind (readAttribute_agree _ hvs)
  | @closed _ name brace ts inner nameKind braceKind read closeKind =>
    -- the closing brace is read, so the body inside is cut off with one token to look at
    dsimp only at hagree
    rw [show 3 + inner.used = 2 + (inner.used + 1) by omega] at hagree
    obtain ⟨vs, rfl, hvs⟩ := hagree.cons_cons
    have hclose := hvs.current_drop (Nat.lt_succ_self _)
    have hread : readBody true last vs = inner :=
      (hinner (Nat.lt_succ_of_lt (Nat.lt_succ_self _)) (by rwa [read])).trans read
    rw [← hclose] at closeKind ⊢
    exact .closed nameKind braceKind hread closeKind
  | @unclosed _ name brace ts inner nameKind braceKind read noClose =>
    -- a block is not closed only if the document ends in it
    have hend : (Token.current (ts.drop inner.used)).kind.endsLine = true := by
      rcases stops_readBody true last ts with hend | ⟨-, hclose⟩
      · rw [read] at hend
        rw [hend]
        rfl
      · rw [read] at hclose
        exact absurd hclose noClose
    dsimp only at hnext
    rw [drop_add_two, Nat.add_assoc] at hnext
    obtain ⟨vs, rfl, hvs⟩ := (hnext hend).cons_cons
    have hclose := hvs.current_drop (Nat.lt_succ_self _)
    have hread : readBody true last vs = inner :=
      (hinner (Nat.lt_succ_of_lt (Nat.lt_succ_self _)) (by rwa [read])).trans read
    rw [← hclose] at noClose
    exact .unclosed nameKind braceKind hread noClose
  | @noSign _ name ts nameKind noEquals noBrace =>
    dsimp only at hnext
    rw [Nat.add_comm 1, List.drop_succ_cons] at hnext
    obtain ⟨vs, rfl, hvs⟩ := (hnext (endsLine_drop_lineLength ts)).cons
    have hcurrent := hvs.current
    rw [← hcurrent] at noEquals noBrace
    rw [← hvs.unexpected, ← hvs.lineLength]
    exact .noSign nameKind noEquals noBrace
  | @noItem _ t ts noEnd noLine noClose noName =>
    dsimp only at hnext
    rw [Nat.add_comm 1, List.drop_succ_cons] at hnext
    have hagree := hnext (endsLine_drop_lineLength ts)
    obtain ⟨vs, rfl, hvs⟩ := hagree.cons
    rw [← hagree.unexpected, ← hvs.lineLength]
    exact .noItem noEnd noLine noClose noName

/-- **The reader of bodies looks one token ahead.** -/
theorem readBody_agree (h : Agree ((readBody nested last ts).used + 1) ts us) :
    readBody nested last us = readBody nested last ts := by
  induction nested, ts using turn_induction last generalizing us with
  | @stop nested ts hstop =>
    have hstop' : Stops nested us := by
      unfold Stops
      rw [h.current]
      exact hstop
    rw [readBody_of_stops hstop, readBody_of_stops hstop']
  | @turn nested ts x hx hinner ih =>
    rw [hx.readBody_eq, Reading.used_after] at h
    have hx' : Turn last nested us x :=
      hx.agree_of (h.mono (by omega)) (fun _ => h.mono (by omega))
        fun hlt hagree => hinner _ hlt hagree
    rw [hx.readBody_eq, hx'.readBody_eq, ih (h.drop x.used (by omega))]

/-- **A turn looks ahead only where it stops at the end of a line.** -/
theorem Turn.agree (h : Turn last nested ts x) (hagree : Agree x.used ts us)
    (hnext : (Token.current (ts.drop x.used)).kind.endsLine = true → Agree (x.used + 1) ts us) :
    Turn last nested us x :=
  h.agree_of hagree hnext fun _ => readBody_agree

/-! ## Another end -/

/-- No block of the body that is never closed ends elsewhere if the document ends at `other`. -/
def EndsAlike (last other : Span) (ts : List Token) : Prop :=
  ∀ name brace rest, name :: brace :: rest <:+ ts → name.kind = .ident →
    brace.kind = .openBrace → name.span.merge other = name.span.merge last

theorem EndsAlike.suffix {other : Span} (h : EndsAlike last other ts) (hsuffix : us <:+ ts) :
    EndsAlike last other us :=
  fun name brace rest hmem => h name brace rest (hmem.trans hsuffix)

theorem Turn.endsAlike_of {other : Span} (h : Turn last nested ts x) (hends : EndsAlike last other ts)
    (hinner : ∀ inner, inner.length < ts.length → EndsAlike last other inner →
      readBody true other inner = readBody true last inner) :
    Turn other nested ts x := by
  cases h with
  | newline kind => exact .newline kind
  | unmatched kind => exact .unmatched kind
  | assignment nameKind signKind read => exact .assignment nameKind signKind read
  | @closed _ name brace ts inner nameKind braceKind read closeKind =>
    have hread := hinner ts (Nat.lt_succ_of_lt (Nat.lt_succ_self _))
      (hends.suffix ((List.suffix_cons _ _).trans (List.suffix_cons _ _)))
    exact .closed nameKind braceKind (hread.trans read) closeKind
  | @unclosed _ name brace ts inner nameKind braceKind read noClose =>
    have hread := hinner ts (Nat.lt_succ_of_lt (Nat.lt_succ_self _))
      (hends.suffix ((List.suffix_cons _ _).trans (List.suffix_cons _ _)))
    rw [← hends name brace ts (List.suffix_refl _) nameKind braceKind]
    exact .unclosed nameKind braceKind (hread.trans read) noClose
  | noSign nameKind noEquals noBrace => exact .noSign nameKind noEquals noBrace
  | noItem noEnd noLine noClose noName => exact .noItem noEnd noLine noClose noName

/-- **Nothing but such blocks depends on where the document ends.** -/
theorem readBody_of_endsAlike {other : Span} (h : EndsAlike last other ts) :
    readBody nested other ts = readBody nested last ts := by
  induction nested, ts using turn_induction last with
  | @stop nested ts hstop => rw [readBody_of_stops hstop, readBody_of_stops hstop]
  | @turn nested ts x hx hinner ih =>
    rw [hx.readBody_eq, (hx.endsAlike_of h hinner).readBody_eq, ih (h.suffix (List.drop_suffix _ _))]

theorem Turn.endsAlike {other : Span} (h : Turn last nested ts x) (hends : EndsAlike last other ts) :
    Turn other nested ts x :=
  h.endsAlike_of hends fun _ _ => readBody_of_endsAlike

end ColorTheme
