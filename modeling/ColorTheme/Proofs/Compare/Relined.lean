import ColorTheme.Proofs.Item.Line

/-!
# A line in the place of another

A document is compared with what it becomes when one of its lines is replaced.

* `Reading.Relined` : all items and flaws are the same, in their new places, but for those of the
  line.
* `relined_of_arrives` : if the reader begins a turn at the line, so it is.
* `confined_to_line` : what is wrong with a line costs this line and no more.
-/

set_option autoImplicit false

namespace ColorTheme

/-- The items of a body in which some items have taken the place of others, at any depth.  All other
items are retouched. -/
inductive ItemsRelined (r : Retouch) (old new : List Item) : Body → Body → Prop
  | here (behind : Body) : ItemsRelined r old new (old ++ behind) (new ++ r.items behind)
  | later {items items' : Body} (before : Body) (others : ItemsRelined r old new items items') :
      ItemsRelined r old new (before ++ items) (r.items before ++ items')
  | inside {inner inner' : Body} (kind : Ident) (span : Span) (behind : Body)
      (body : ItemsRelined r old new inner inner') :
      ItemsRelined r old new (.block kind inner span :: behind)
        (.block (r.ident kind) inner' (r.span span) :: r.items behind)

/-- What is read where `new` is read instead of `old`, and all the rest is retouched. -/
structure Reading.Relined (r : Retouch) (old new x y : Reading) : Prop where
  items : ItemsRelined r old.items new.items x.items y.items
  flaws : ∃ before behind, x.flaws = before ++ old.flaws ++ behind ∧
    y.flaws = before.map r.flaw ++ new.flaws ++ behind.map r.flaw

variable {r : Retouch} {last : Span} {nested depth : Bool} {old new x y : Reading}
variable {ts pre run run' rest : List Token}

/-! ## The line and what is around it -/

namespace Reading.Relined

theorem here (n n' : Nat) (behind : Reading) :
    Relined r old new (.after old.items old.flaws n behind)
      (.after new.items new.flaws n' (r.reading behind)) where
  items := .here behind.items
  flaws := ⟨[], behind.flaws, rfl, rfl⟩

theorem later (items : Body) (flaws : List Flaw) (n n' : Nat) (h : Relined r old new x y) :
    Relined r old new (.after items flaws n x) (.after (r.items items) (flaws.map r.flaw) n' y) := by
  obtain ⟨before, behind, hx, hy⟩ := h.flaws
  refine ⟨.later items h.items, flaws ++ before, behind, ?_, ?_⟩
  · rw [Reading.flaws_after, hx, List.append_assoc, List.append_assoc, List.append_assoc]
  · rw [Reading.flaws_after, hy, List.map_append, List.append_assoc, List.append_assoc,
      List.append_assoc]

theorem inside (kind : Ident) (span : Span) (flaws : List Flaw) (n n' : Nat) (behind : Reading)
    (h : Relined r old new x y) :
    Relined r old new (.after [.block kind x.items span] (x.flaws ++ flaws) n behind)
      (.after [.block (r.ident kind) y.items (r.span span)] (y.flaws ++ flaws.map r.flaw) n'
        (r.reading behind)) := by
  obtain ⟨before, later, hx, hy⟩ := h.flaws
  refine ⟨.inside kind span behind.items h.items, before, later ++ flaws ++ behind.flaws, ?_, ?_⟩
  · rw [Reading.flaws_after, hx]
    simp only [List.append_assoc]
  · rw [Reading.flaws_after, hy, Retouch.flaws_reading, List.map_append, List.map_append]
    simp only [List.append_assoc]

end Reading.Relined

/-! ## Up to the line -/

/-- The tokens before the line are the same but for their places. -/
theorem agree_retouched {n : Nat} (hle : n ≤ pre.length) :
    Agree n ((pre ++ (run ++ rest)).map r.token)
      (pre.map r.token ++ (run' ++ rest.map r.token)) := by
  have hlength : n ≤ (pre.map r.token).length := by rwa [List.length_map]
  rw [Agree, List.map_append, List.take_append_of_le_length hlength,
    List.take_append_of_le_length hlength]

/-- A turn before the line does not look at it. -/
theorem turn_before (hline : IsLine run) (h : Turn last nested (pre ++ (run ++ rest)) x)
    (hle : x.used ≤ pre.length) :
    Turn (r.span last) nested (pre.map r.token ++ (run' ++ rest.map r.token)) (r.reading x) := by
  refine (h.map r).agree (agree_retouched hle) fun hend => agree_retouched ?_
  -- a turn that looks ahead stops at the end of a line, and that is not where the line begins
  refine Nat.lt_of_le_of_ne hle fun heq => ?_
  rw [r.used_reading] at heq
  rw [r.used_reading, ← List.map_drop, r.current_map, r.kind_token, heq, List.drop_left] at hend
  exact not_endsLine_current_append hline.nonempty hline.kinds hend

/-- The readings that replace each other and how far they go. -/
structure RelinedTo (r : Retouch) (old new : Reading) (pre run run' : List Token) (x y : Reading) :
    Prop where
  relined : Reading.Relined r old new x y
  used : ∃ m, x.used = pre.length + (run.length + m) ∧ y.used = pre.length + (run'.length + m)

theorem relinedTo_here (hline : IsLine run) (hline' : IsLine run') (hend : EndsRun rest)
    (hold : Turn last nested (run ++ rest) old)
    (hnew : Turn (r.span last) nested (run' ++ rest.map r.token) new) :
    RelinedTo r old new [] run run' (readBody nested last (run ++ rest))
      (readBody nested (r.span last) (run' ++ rest.map r.token)) := by
  have hend' : EndsRun (rest.map r.token) := by
    unfold EndsRun
    rw [r.current_map]
    exact hend
  have hused := (readsLine_of_turn hline hend hold).used
  have hused' := (readsLine_of_turn hline' hend' hnew).used
  rw [hold.readBody_eq, hnew.readBody_eq, hused, hused', List.drop_left, List.drop_left,
    r.readBody_map]
  refine ⟨.here _ _ _, (readBody nested last rest).used, ?_, ?_⟩
  · rw [Reading.used_after, List.length_nil, Nat.zero_add]
  · rw [Reading.used_after, r.used_reading, List.length_nil, Nat.zero_add]

theorem relinedTo_next {before behind : List Token} (hline : IsLine run)
    (hx : Turn last nested (before ++ (behind ++ (run ++ rest))) x)
    (hused : x.used = before.length)
    (h : RelinedTo r old new behind run run' (readBody nested last (behind ++ (run ++ rest)))
      (readBody nested (r.span last) (behind.map r.token ++ (run' ++ rest.map r.token)))) :
    RelinedTo r old new (before ++ behind) run run'
      (readBody nested last (before ++ (behind ++ (run ++ rest))))
      (readBody nested (r.span last)
        ((before ++ behind).map r.token ++ (run' ++ rest.map r.token))) := by
  have hx' : Turn (r.span last) nested
      ((before ++ behind).map r.token ++ (run' ++ rest.map r.token)) (r.reading x) := by
    refine turn_before hline (by rwa [List.append_assoc]) ?_
    rw [hused, List.length_append]
    exact Nat.le_add_right _ _
  have hdrop : ((before ++ behind).map r.token ++ (run' ++ rest.map r.token)).drop x.used =
      behind.map r.token ++ (run' ++ rest.map r.token) := by
    rw [hused, List.map_append, List.append_assoc, List.drop_append_of_le_length (by simp)]
    simp
  obtain ⟨m, hm, hm'⟩ := h.used
  rw [hx.readBody_eq, hx'.readBody_eq, r.used_reading, hdrop, hused, List.drop_left]
  refine ⟨h.relined.later x.items x.flaws _ _, m, ?_, ?_⟩
  · rw [Reading.used_after, hm, List.length_append, Nat.add_assoc]
  · rw [Reading.used_after, hm', List.length_append, Nat.add_assoc]

theorem drop_add_three (t u : Token) (ts : List Token) (n : Nat) :
    (t :: u :: ts).drop (3 + n) = (ts.drop n).drop 1 := by
  rw [show 3 + n = 2 + (n + 1) by omega, drop_add_two, List.drop_drop]

theorem drop_line (pre run rest : List Token) (m : Nat) :
    (pre ++ (run ++ rest)).drop (pre.length + (run.length + m)) = rest.drop m := by
  rw [← List.drop_drop, List.drop_left, ← List.drop_drop, List.drop_left]

theorem relinedTo_inside {name brace : Token} (nameKind : name.kind = .ident)
    (braceKind : brace.kind = .openBrace)
    (h : RelinedTo r old new pre run run' (readBody true last (pre ++ (run ++ rest)))
      (readBody true (r.span last) (pre.map r.token ++ (run' ++ rest.map r.token)))) :
    RelinedTo r old new (name :: brace :: pre) run run'
      (readBody nested last (name :: brace :: (pre ++ (run ++ rest))))
      (readBody nested (r.span last)
        ((name :: brace :: pre).map r.token ++ (run' ++ rest.map r.token))) := by
  obtain ⟨m, hm, hm'⟩ := h.used
  have hname : Ident.ofToken (r.token name) = r.ident (.ofToken name) := r.ident_ofToken nameKind
  have htext : (r.token name).text = name.text :=
    r.text_of_ne (by rw [nameKind]; decide) (by rw [nameKind]; decide)
  have hstop : (pre ++ (run ++ rest)).drop (readBody true last (pre ++ (run ++ rest))).used =
      rest.drop m := by
    rw [hm, drop_line]
  have hstop' : (pre.map r.token ++ (run' ++ rest.map r.token)).drop
      (readBody true (r.span last) (pre.map r.token ++ (run' ++ rest.map r.token))).used =
      (rest.drop m).map r.token := by
    rw [hm', ← pre.length_map (f := r.token), drop_line, List.map_drop]
  have hcurrent : Token.current ((rest.drop m).map r.token) =
      r.token (Token.current (rest.drop m)) := r.current_map _
  rw [List.map_cons, List.map_cons, List.cons_append, List.cons_append]
  by_cases hclose : (Token.current (rest.drop m)).kind = .closeBrace
  · have hx : Turn last nested (name :: brace :: (pre ++ (run ++ rest))) _ :=
      .closed nameKind braceKind rfl (by rw [hstop]; exact hclose)
    have hx' : Turn (r.span last) nested
        (r.token name :: r.token brace :: (pre.map r.token ++ (run' ++ rest.map r.token))) _ :=
      .closed nameKind braceKind rfl (by rw [hstop', hcurrent]; exact hclose)
    rw [hx.readBody_eq, hx'.readBody_eq, drop_add_three, drop_add_three, hstop, hstop', hcurrent,
      hname, r.span_token, r.span_token, ← r.span_merge, ← List.map_drop, r.readBody_map]
    have hrelined := h.relined.inside (.ofToken name)
      (name.span.merge (Token.current (rest.drop m)).span) []
    rw [List.map_nil, List.append_nil, List.append_nil] at hrelined
    refine ⟨hrelined _ _ _,
      m + 1 + (readBody nested last ((rest.drop m).drop 1)).used, ?_, ?_⟩
    · rw [Reading.used_after, hm, List.length_cons, List.length_cons]
      dsimp only
      omega
    · rw [Reading.used_after, hm', r.used_reading, List.length_cons, List.length_cons]
      dsimp only
      omega
  · have hx : Turn last nested (name :: brace :: (pre ++ (run ++ rest))) _ :=
      .unclosed nameKind braceKind rfl (by rw [hstop]; exact hclose)
    have hx' : Turn (r.span last) nested
        (r.token name :: r.token brace :: (pre.map r.token ++ (run' ++ rest.map r.token))) _ :=
      .unclosed nameKind braceKind rfl (by rw [hstop', hcurrent]; exact hclose)
    rw [hx.readBody_eq, hx'.readBody_eq, drop_add_two, drop_add_two, hstop, hstop', hname, htext,
      r.span_token, r.span_token, ← r.span_merge, r.readBody_map]
    refine ⟨h.relined.inside _ _ [⟨.unclosedBlock name.text, brace.span⟩] _ _ _,
      m + (readBody nested last (rest.drop m)).used, ?_, ?_⟩
    · rw [Reading.used_after, hm, List.length_cons, List.length_cons]
      dsimp only
      omega
    · rw [Reading.used_after, hm', r.used_reading, List.length_cons, List.length_cons]
      dsimp only
      omega

/-- **Where the reader begins a turn at the line, it makes no difference but what it reads of the
line.** -/
theorem relined_of_arrives (hline : IsLine run) (hline' : IsLine run') (hend : EndsRun rest)
    (hold : Turn last depth (run ++ rest) old)
    (hnew : Turn (r.span last) depth (run' ++ rest.map r.token) new)
    (h : Arrives last nested ts depth (run ++ rest)) (hts : ts = pre ++ (run ++ rest)) :
    RelinedTo r old new pre run run' (readBody nested last ts)
      (readBody nested (r.span last) (pre.map r.token ++ (run' ++ rest.map r.token))) := by
  generalize hplace : run ++ rest = place at h hts
  -- on the way to the line: each turn before it is made in both documents, and each block around it
  -- is opened in both and ends at the same token
  induction h generalizing pre with
  | here nested ts =>
    subst hplace
    obtain rfl : pre = [] := by simpa using hts
    exact relinedTo_here hline hline' hend hold hnew
  | @next nested depth ts place x turn behind ih =>
    subst hplace
    obtain ⟨later, hlater⟩ := behind.suffix
    obtain ⟨before, rfl, hlength⟩ :
        ∃ before, ts = before ++ (later ++ (run ++ rest)) ∧ x.used = before.length := by
      refine ⟨ts.take x.used, by rw [hlater, List.take_append_drop], ?_⟩
      refine (List.length_take_of_le (Nat.le_of_lt (Nat.lt_of_not_le fun hle => ?_))).symm
      rw [List.drop_eq_nil_of_le hle, List.append_eq_nil_iff, List.append_eq_nil_iff] at hlater
      exact hline.nonempty hlater.2.1
    obtain rfl : pre = before ++ later := by
      rw [← List.append_assoc] at hts
      exact (List.append_cancel_right hts).symm
    have hrest := ih hold hnew rfl hlater.symm
    rw [← hlater] at hrest
    exact relinedTo_next hline turn hlength hrest
  | @inside nested depth name brace ts place nameKind braceKind body ih =>
    subst hplace
    obtain ⟨later, rfl⟩ := body.suffix
    obtain rfl : pre = name :: brace :: later := by
      have hcons : (name :: brace :: later) ++ (run ++ rest) = pre ++ (run ++ rest) := hts
      exact (List.append_cancel_right hcons).symm
    exact relinedTo_inside nameKind braceKind (ih hold hnew rfl rfl)

/-! ## Places -/

/-- Where the last of the tokens stops. -/
def stopOf (ts : List Token) : Nat := (ts.getLast?.map fun t => t.span.stop).getD 0

/-- The places up to `front` stay.  Those behind it are moved, so that `stop` comes to `stop'`. -/
def Retouch.shift (front stop stop' : Nat) : Retouch where
  move place := if place ≤ front then place else max front (place - stop + stop')
  paint _ := none
  mono place place' hle := by
    dsimp only
    split <;> split <;> omega
  zero := if_pos (Nat.zero_le front)

/-- What stands behind a line is moved by as much as the line becomes longer or shorter. -/
def lineShift (pre run run' : List Token) : Retouch :=
  .shift (stopOf pre) (stopOf run) (stopOf run')

section

variable {cs : List Char} {t : Token}

@[simp] theorem stopOf_concat (ts : List Token) (t : Token) :
    stopOf (ts ++ [t]) = t.span.stop := by
  simp [stopOf]

theorem Spaced.stop_le_stopOf (hs : Spaced cs last ts) (ht : t ∈ ts) : t.span.stop ≤ stopOf ts := by
  rcases List.eq_nil_or_concat' ts with rfl | ⟨front, final, rfl⟩
  · cases ht
  · rw [stopOf_concat]
    rcases List.mem_append.1 ht with ht | ht
    · have hbefore : t.span.stop ≤ final.span.start :=
        (List.pairwise_append.1 hs.apart).2.2 t ht final (List.mem_singleton_self final)
      exact Nat.le_trans hbefore (hs.span_fits (by simp)).ordered
    · rw [List.mem_singleton.1 ht]

theorem Spaced.stopOf_le_start (hs : Spaced cs last (pre ++ ts)) (ht : t ∈ ts) :
    stopOf pre ≤ t.span.start := by
  rcases List.eq_nil_or_concat' pre with rfl | ⟨front, final, rfl⟩
  · exact Nat.zero_le _
  · rw [stopOf_concat]
    exact (List.pairwise_append.1 hs.apart).2.2 final (by simp) t ht

/-- What stands before the line stays where it is. -/
theorem Spaced.map_lineShift (hs : Spaced cs last pre) (run run' : List Token) :
    pre.map (lineShift pre run run').token = pre := by
  refine (List.map_congr_left fun t ht => ?_).trans (List.map_id pre)
  have hstop := hs.stop_le_stopOf ht
  have hstart := Nat.le_trans (hs.span_fits ht).ordered hstop
  have hspan : (lineShift pre run run').span t.span = t.span := by
    rw [Retouch.span, lineShift, Retouch.shift]
    dsimp only
    rw [if_pos hstart, if_pos hstop]
  rw [Retouch.token_of_none _ rfl, hspan]
  rfl

end

/-! ## The last token -/

theorem lastSpan_append {behind : List Token} (h : behind.dropLast ≠ []) :
    lastSpan (ts ++ behind) = lastSpan behind := by
  have hne : behind ≠ [] := by
    rintro rfl
    exact h rfl
  rw [lastSpan, lastSpan, List.dropLast_append_of_ne_nil hne, List.getLast?_append_of_ne_nil _ h]

theorem lastSpan_concat (ts : List Token) (t : Token) :
    lastSpan (ts ++ [t]) = (ts.getLast?.map Token.span).getD (.point 0) := by
  rw [lastSpan, List.dropLast_concat]

/-- A document that ends with a line ends with the last token of it. -/
theorem exists_lastSpan_line (hne : run ≠ []) (pre : List Token) (stop : Token) :
    ∃ t ∈ run, lastSpan (pre ++ (run ++ [stop])) = t.span ∧ stopOf run = t.span.stop := by
  obtain ⟨front, t, rfl⟩ := (List.eq_nil_or_concat' run).resolve_left hne
  refine ⟨t, by simp, ?_, stopOf_concat front t⟩
  rw [← List.append_assoc, lastSpan_concat, ← List.append_assoc, List.getLast?_concat]
  rfl

/-- An opened block has its name before the line. -/
theorem endsAlike_of_pre {other : Span} (hbraces : ∀ t ∈ ts, t.kind ≠ .openBrace)
    (h : ∀ name ∈ pre, name.kind = .ident → name.span.merge other = name.span.merge last) :
    EndsAlike last other (pre ++ ts) := by
  intro name brace more hsuffix nameKind braceKind
  obtain ⟨front, heq⟩ := hsuffix
  rcases List.append_eq_append_iff.1 heq with ⟨middle, hpre, hmore⟩ | ⟨middle, -, hts⟩
  · cases middle with
    | nil =>
      rw [List.nil_append] at hmore
      refine absurd braceKind (hbraces brace ?_)
      rw [← hmore]
      simp
    | cons first middle =>
      obtain ⟨rfl, -⟩ := List.cons.inj hmore
      refine h name ?_ nameKind
      rw [hpre]
      simp
  · refine absurd braceKind (hbraces brace ?_)
    rw [hts]
    simp

/-- A span from before the line to its end is moved to one from there to the new end. -/
theorem merge_shift {front : Nat} {name s s' : Span} (hname : name.start ≤ front)
    (hs : front ≤ s.start) (hs' : front ≤ s'.start) (hstop : front < s.stop)
    (hstop' : front ≤ s'.stop) :
    name.merge s' = name.merge ((Retouch.shift front s.stop s'.stop).span s) := by
  have hleft : min name.start s'.start = min name.start
      (if s.start ≤ front then s.start else max front (s.start - s.stop + s'.stop)) := by
    split <;> omega
  have hright : max name.stop s'.stop = max name.stop
      (if s.stop ≤ front then s.stop else max front (s.stop - s.stop + s'.stop)) := by
    rw [if_neg (Nat.not_le_of_lt hstop)]
    omega
  exact congrArg₂ Span.mk hleft hright

/-- **Wherever the document ends, the blocks that are never closed end there.** -/
theorem endsAlike_lineShift {cs cs' : List Char} (hline : IsLine run) (hline' : IsLine run')
    (hend : EndsRun rest)
    (hs : Spaced cs (lastSpan (pre ++ (run ++ rest))) (pre ++ (run ++ rest)))
    (hs' : Spaced cs' (lastSpan (pre ++ (run' ++ rest.map (lineShift pre run run').token)))
      (pre ++ (run' ++ rest.map (lineShift pre run run').token))) (hrest : rest ≠ []) :
    EndsAlike ((lineShift pre run run').span (lastSpan (pre ++ (run ++ rest))))
      (lastSpan (pre ++ (run' ++ rest.map (lineShift pre run run').token)))
      (pre ++ (run' ++ rest.map (lineShift pre run run').token)) := by
  by_cases hlast : rest.dropLast = []
  · -- the line is the last one, so it is where such blocks end
    obtain ⟨stop, rfl⟩ : ∃ stop, rest = [stop] := by
      cases rest with
      | nil => exact absurd rfl hrest
      | cons stop rest =>
        cases rest with
        | nil => exact ⟨stop, rfl⟩
        | cons t rest => cases hlast
    rw [List.map_singleton] at hs' ⊢
    obtain ⟨t, ht, hspan, hstop⟩ := exists_lastSpan_line hline.nonempty pre stop
    obtain ⟨t', ht', hspan', hstop'⟩ := exists_lastSpan_line hline'.nonempty pre
      ((lineShift pre run run').token stop)
    rw [hspan, hspan']
    refine endsAlike_of_pre ?_ fun name hname nameKind => ?_
    · refine List.forall_mem_append.2 ⟨fun u hu hk => ?_, ?_⟩
      · exact absurd (hline'.kinds u hu) (by rw [hk]; decide)
      · rintro u hu
        rw [List.mem_singleton.1 hu]
        exact hend.ne (by decide) (by decide)
    · have hfront := hs.stopOf_le_start (List.mem_append_left _ ht)
      have hfront' := hs'.stopOf_le_start (List.mem_append_left _ ht')
      have hmem : t ∈ pre ++ (run ++ [stop]) := by simp [ht]
      have hmem' : t' ∈ pre ++ (run' ++ [(lineShift pre run run').token stop]) := by simp [ht']
      have hlt := hs.nonempty t hmem fun hk => absurd (hline.kinds t ht) (by rw [hk]; decide)
      have hle' := (hs'.span_fits hmem').ordered
      have hpre := hs.sublist (List.sublist_append_left pre _)
      have hname' := Nat.le_trans (hpre.span_fits hname).ordered (hpre.stop_le_stopOf hname)
      rw [lineShift, hstop, hstop']
      exact merge_shift hname' hfront hfront' (Nat.lt_of_le_of_lt hfront hlt)
        (Nat.le_trans hfront' hle')
  · have hlast' : (rest.map (lineShift pre run run').token).dropLast ≠ [] := by
      rw [← List.map_dropLast]
      exact fun hnil => hlast (List.map_eq_nil_iff.1 hnil)
    rw [← List.append_assoc, ← List.append_assoc, lastSpan_append hlast, lastSpan_append hlast',
      Retouch.lastSpan_map]
    exact fun _ _ _ _ _ _ => rfl

/-! ## Sources -/

/-- The end of the file stands behind every line. -/
theorem ne_nil_of_tokenize {source : String} (hline : IsLine run)
    (h : tokenize source = pre ++ (run ++ rest)) : rest ≠ [] := by
  rintro rfl
  obtain ⟨stop, hstop, read, hread, -⟩ := Grammar.tokenize_leadsTo source
  obtain ⟨front, t, rfl⟩ := (List.eq_nil_or_concat' run).resolve_left hline.nonempty
  have heq : read ++ [stop] = (pre ++ front) ++ [t] := by
    rw [← hread, h, List.append_nil, List.append_assoc]
  obtain rfl : stop = t := List.singleton_inj.1 (List.append_inj' heq rfl).2
  exact absurd (hline.kinds stop (by simp)) (by rw [hstop]; decide)

/-- Nothing that is wrong with a line costs more than the line. -/
structure ConfinedToLine (run rest : List Token) : Prop where
  /-- The reader makes one turn for the line, at any depth. -/
  turn : ∀ nested last, (∃ x, Turn last nested (run ++ rest) x) ∧
    ∀ x, Turn last nested (run ++ rest) x → ReadsLine run x ∧
      readBody nested last (run ++ rest) =
        .after x.items x.flaws run.length (readBody nested last rest)
  /-- Behind the line the next turn begins. -/
  returns : ∀ last nested ts depth, Arrives last nested ts depth (run ++ rest) →
    Arrives last nested ts depth rest
  /-- Whatever stands around the line is read as if another line stood there. -/
  replaced : ∀ (r : Retouch) last nested depth pre run', IsLine run' →
    Arrives last nested (pre ++ (run ++ rest)) depth (run ++ rest) →
    ∃ old new, ReadsLine run old ∧ ReadsLine run' new ∧ Turn last depth (run ++ rest) old ∧
      Turn (r.span last) depth (run' ++ rest.map r.token) new ∧
      Reading.Relined r old new (readBody nested last (pre ++ (run ++ rest)))
        (readBody nested (r.span last) (pre.map r.token ++ (run' ++ rest.map r.token)))
  /-- So it is in a source, if the line is replaced there. -/
  source : ∀ source source' pre run' depth, IsLine run' →
    tokenize source = pre ++ (run ++ rest) →
    tokenize source' = pre ++ (run' ++ rest.map (lineShift pre run run').token) →
    Arrives (lastSpan (tokenize source)) false (tokenize source) depth (run ++ rest) →
    ∃ old new, ReadsLine run old ∧ ReadsLine run' new ∧
      Turn (lastSpan (tokenize source)) depth (run ++ rest) old ∧
      Turn (lastSpan (tokenize source')) depth
        (run' ++ rest.map (lineShift pre run run').token) new ∧
      Reading.Relined (lineShift pre run run') old new (Body.read source) (Body.read source')

theorem EndsRun.map (hend : EndsRun rest) (r : Retouch) : EndsRun (rest.map r.token) := by
  unfold EndsRun
  rw [r.current_map]
  exact hend

/-- The two lines are read in one turn each, and all the rest is read alike. -/
theorem exists_relined (r : Retouch) (hline : IsLine run) (hline' : IsLine run')
    (hend : EndsRun rest) (h : Arrives last nested (pre ++ (run ++ rest)) depth (run ++ rest)) :
    ∃ old new, ReadsLine run old ∧ ReadsLine run' new ∧ Turn last depth (run ++ rest) old ∧
      Turn (r.span last) depth (run' ++ rest.map r.token) new ∧
      Reading.Relined r old new (readBody nested last (pre ++ (run ++ rest)))
        (readBody nested (r.span last) (pre.map r.token ++ (run' ++ rest.map r.token))) := by
  obtain ⟨old, hold⟩ := exists_turn_of_isLine hline depth last rest
  obtain ⟨new, hnew⟩ := exists_turn_of_isLine hline' depth (r.span last) (rest.map r.token)
  exact ⟨old, new, readsLine_of_turn hline hend hold, readsLine_of_turn hline' (hend.map r) hnew,
    hold, hnew, (relined_of_arrives hline hline' hend hold hnew h rfl).relined⟩

/-- **What is wrong with a line is confined to the line.** -/
theorem confined_to_line (hline : IsLine run) (hend : EndsRun rest) : ConfinedToLine run rest := by
  constructor
  case turn =>
    intro nested last
    refine ⟨exists_turn_of_isLine hline nested last rest, fun x hx => ?_⟩
    have hreads := readsLine_of_turn hline hend hx
    refine ⟨hreads, ?_⟩
    rw [hx.readBody_eq, hreads.used, List.drop_left]
  case returns =>
    intro last nested ts depth h
    obtain ⟨x, hx⟩ := exists_turn_of_isLine hline depth last rest
    refine h.trans (.next hx ?_)
    rw [(readsLine_of_turn hline hend hx).used, List.drop_left]
    exact .here depth rest
  case replaced =>
    intro r last nested depth pre run' hline' h
    exact exists_relined r hline hline' hend h
  case source =>
    intro source source' pre run' depth hline' hsource hsource' h
    have hs := spaced_tokenize source
    have hs' := spaced_tokenize source'
    rw [hsource] at h hs
    rw [hsource'] at hs'
    have hends := endsAlike_lineShift hline hline' hend hs hs' (ne_nil_of_tokenize hline hsource)
    have hpre := (hs.sublist (List.sublist_append_left pre _)).map_lineShift run run'
    obtain ⟨old, new, hold, hnew, hturn, hturn', hrelined⟩ :=
      exists_relined (lineShift pre run run') hline hline' hend h
    rw [hpre, ← readBody_of_endsAlike hends] at hrelined
    refine ⟨old, new, hold, hnew, ?_, ?_, ?_⟩
    · rw [hsource]
      exact hturn
    · rw [hsource']
      exact hturn'.endsAlike (hends.suffix (List.suffix_append _ _))
    · rw [Body.read, Body.read, hsource, hsource']
      exact hrelined

/-- A line that is torn off at a dot. -/
def tornLine : List Token :=
  [⟨.ident, "x", ⟨12, 13⟩⟩, ⟨.equals, "=", ⟨14, 15⟩⟩, ⟨.ident, "a", ⟨16, 17⟩⟩,
    ⟨.dot, ".", ⟨17, 18⟩⟩]

/-- A line in the place of it that is an attribute. -/
def mendedLine : List Token :=
  [⟨.ident, "x", ⟨12, 13⟩⟩, ⟨.equals, "=", ⟨14, 15⟩⟩, ⟨.hex, "#010203", ⟨16, 23⟩⟩]

def tornSource : String := "palette \x7b\n  x = a.\n  y = 1\n\x7d"

def mendedSource : String := "palette \x7b\n  x = #010203\n  y = 1\n\x7d"

theorem confined_to_line_tornSource :
    ∃ pre rest old new, tokenize tornSource = pre ++ (tornLine ++ rest) ∧
      IsLine tornLine ∧ EndsRun rest ∧ ConfinedToLine tornLine rest ∧
      old.flaws ≠ [] ∧ new.flaws = [] ∧
      Reading.Relined (lineShift pre tornLine mendedLine) old new (Body.read tornSource)
        (Body.read mendedSource) := by
  let pre : List Token :=
    [⟨.ident, "palette", ⟨0, 7⟩⟩, ⟨.openBrace, "\x7b", ⟨8, 9⟩⟩, ⟨.newline, "\n", ⟨9, 10⟩⟩]
  obtain ⟨rest, hend, hsource, hmended⟩ : ∃ rest, EndsRun rest ∧
      tokenize tornSource = pre ++ (tornLine ++ rest) ∧
      tokenize mendedSource =
        pre ++ (mendedLine ++ rest.map (lineShift pre tornLine mendedLine).token) :=
    ⟨(tokenize tornSource).drop 7, .inl (by decide +kernel), by decide +kernel, by decide +kernel⟩
  have hline : IsLine tornLine := ⟨by decide, by decide⟩
  have hmendedLine : IsLine mendedLine := ⟨by decide, by decide⟩
  have hconfined := confined_to_line hline hend
  have harrives (last : Span) :
      Arrives last false (pre ++ (tornLine ++ rest)) true (tornLine ++ rest) :=
    .inside rfl rfl (.next (.newline rfl) (.here true _))
  obtain ⟨old, new, hold, hnew, -, -, hrelined⟩ := hconfined.source tornSource mendedSource pre
    mendedLine true hmendedLine hsource hmended (hsource ▸ harrives _)
  refine ⟨pre, rest, old, new, hsource, hline, hend, hconfined, ?_, ?_, hrelined⟩
  · intro hflaws
    obtain ⟨a, ha⟩ := hold.flawless.1 hflaws
    cases ha with
    | mk nameKind signKind expr =>
      cases expr with
      | path kind word others => cases others
      | call nameKind parenKind inner => cases parenKind
  · exact hnew.flawless.2 ⟨_, .mk rfl rfl (.hex [] rfl)⟩

end ColorTheme
