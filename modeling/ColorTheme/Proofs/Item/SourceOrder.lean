import ColorTheme.Proofs.Grammar.Expr
import ColorTheme.Proofs.Grammar.Progress
import ColorTheme.Proofs.Text.Slice
import Mathlib.Data.List.Induction

/-!
# Items in the order of the source

* `ordered_tokenize` : each token of a source starts behind the one before it.
* `laid_readBody` : the names and the values of the items that are read, those inside of blocks
  included, stand in the source one behind the other.
* `Body.read_ordered`, `Body.read_start` : so do the items of a source, and an item begins with its
  name.
* `Body.read_name`, `Body.read_marks` : a name is a token of the source, and no two values stand at
  the same place.
-/

set_option autoImplicit false

namespace ColorTheme

mutual

/-- The item and all items in it, in the order in which they begin. -/
def Item.spread : Item → List Item
  | .assignment a => [.assignment a]
  | .block kind body span => .block kind body span :: spreadAll body

/-- The items and all items in them, in the order in which they begin. -/
def spreadAll : List Item → List Item
  | [] => []
  | item :: items => item.spread ++ spreadAll items

end

@[simp] theorem spreadAll_nil : spreadAll [] = [] := rfl

theorem spreadAll_append (a b : List Item) : spreadAll (a ++ b) = spreadAll a ++ spreadAll b := by
  induction a with
  | nil => rfl
  | cons item a ih => rw [List.cons_append, spreadAll, spreadAll, ih, List.append_assoc]

/-- A block of a body has its items among those of the body. -/
theorem spreadAll_sublist_of_mem {items : Body} {block : Block} (h : block ∈ items.blocks) :
    (spreadAll block.body).Sublist (spreadAll items) := by
  obtain ⟨item, hitem, hblock⟩ := List.mem_filterMap.1 h
  obtain ⟨before, behind, rfl⟩ := List.append_of_mem hitem
  cases item with
  | assignment a => cases hblock
  | block kind body span =>
    cases hblock
    rw [spreadAll_append, spreadAll, Item.spread]
    exact .trans (.trans (.cons _ (.refl _)) (List.sublist_append_left _ _))
      (List.sublist_append_right _ _)

/-! ## Tokens -/

/-- Each token starts behind those before it. -/
def Ordered (ts : List Token) : Prop := ts.Pairwise fun s t => s.span.start < t.span.start

theorem start_locate {offset : Nat} {ps : List Piece} (hps : ∀ p ∈ ps, p.text ≠ []) :
    ∀ t ∈ locate offset ps, offset ≤ t.span.start ∧
      t.span.start < offset + byteLength (ps.map Piece.text).flatten := by
  fun_induction locate offset ps with
  | case1 => simp
  | case2 offset p ps stop kind hkind ih =>
    have hp := byteLength_pos (hps p List.mem_cons_self)
    have ih := ih fun q hq => hps q (List.mem_cons_of_mem p hq)
    rw [List.map_cons, List.flatten_cons, byteLength_append]
    intro t ht
    rcases List.mem_cons.1 ht with rfl | ht
    · dsimp only
      omega
    · have := ih t ht
      omega
  | case3 offset p ps stop hkind ih =>
    have ih := ih fun q hq => hps q (List.mem_cons_of_mem p hq)
    rw [List.map_cons, List.flatten_cons, byteLength_append]
    intro t ht
    have := ih t ht
    omega

theorem ordered_locate {offset : Nat} {ps : List Piece} (hps : ∀ p ∈ ps, p.text ≠ []) :
    Ordered (locate offset ps) := by
  fun_induction locate offset ps with
  | case1 => exact .nil
  | case2 offset p ps stop kind hkind ih =>
    have hrest : ∀ q ∈ ps, q.text ≠ [] := fun q hq => hps q (List.mem_cons_of_mem p hq)
    refine .cons (fun t ht => ?_) (ih hrest)
    have hp := byteLength_pos (hps p List.mem_cons_self)
    have ht := (start_locate hrest t ht).1
    dsimp only
    omega
  | case3 offset p ps stop hkind ih =>
    exact ih fun q hq => hps q (List.mem_cons_of_mem p hq)

/-- **Each token of a source starts behind those before it.** -/
theorem ordered_tokenize (source : String) : Ordered (tokenize source) := by
  have hps : ∀ p ∈ pieces source.toList, p.text ≠ [] := fun p hp => text_ne_nil_of_mem_pieces hp
  refine List.pairwise_append.2 ⟨ordered_locate hps, List.pairwise_singleton _ _, ?_⟩
  intro t ht stop hstop
  have ht := (start_locate hps t ht).2
  rw [List.mem_singleton.1 hstop]
  rw [flatten_pieces, Nat.zero_add] at ht
  exact ht

theorem Ordered.start_le {t : Token} {ts : List Token} (h : Ordered (t :: ts)) :
    ∀ s ∈ t :: ts, t.span.start ≤ s.span.start := by
  intro s hs
  rcases List.mem_cons.1 hs with rfl | hs
  · exact Nat.le_refl _
  · exact Nat.le_of_lt (List.rel_of_pairwise_cons h hs)

/-- The tokens stand one behind the other, and only the end of the file stands behind the place
`last`. -/
structure Lined (last : Span) (ts : List Token) : Prop where
  ordered : Ordered ts
  bounded : ∀ t ∈ ts, t.kind ≠ .endOfFile → t.span.start ≤ last.start

theorem Lined.sublist {last : Span} {ss ts : List Token} (h : Lined last ts)
    (hsub : ss.Sublist ts) : Lined last ss :=
  ⟨h.ordered.sublist hsub, fun t ht => h.bounded t (hsub.subset ht)⟩

theorem lined_tokenize (source : String) : Lined (lastSpan (tokenize source)) (tokenize source) := by
  have hordered := ordered_tokenize source
  refine ⟨hordered, fun t ht hkind => ?_⟩
  rcases List.mem_append.1 ht with ht | ht
  · cases hlocated : locate 0 (pieces source.toList) using List.reverseRecOn with
    | nil => rw [hlocated] at ht; cases ht
    | append_singleton front final =>
      have hlast : lastSpan (tokenize source) = final.span := by
        unfold lastSpan tokenize
        rw [hlocated, List.dropLast_concat, List.getLast?_concat]
        rfl
      rw [hlast]
      rw [tokenize, hlocated] at hordered
      rw [hlocated] at ht
      rcases List.mem_append.1 ht with ht | ht
      · have hfront := (List.pairwise_append.1 (List.pairwise_append.1 hordered).1).2.2
        exact Nat.le_of_lt (hfront t ht final (List.mem_singleton_self final))
      · exact Nat.le_of_eq (by rw [List.mem_singleton.1 ht])
  · rw [List.mem_singleton.1 ht] at hkind
    exact absurd rfl hkind

/-! ## Expressions -/

namespace Grammar

variable {ts rest : List Token}

theorem IsSegments.span_mem {segments : List Ident} (h : IsSegments ts segments rest) :
    ∀ segment ∈ segments, ∃ t ∈ ts, segment.span = t.span := by
  induction h with
  | none ts => simp
  | @more dot name ts rest segments _ _ _ ih =>
    intro segment hs
    rcases List.mem_cons.1 hs with rfl | hs
    · exact ⟨name, by simp, rfl⟩
    · obtain ⟨t, ht, heq⟩ := ih segment hs
      exact ⟨t, by simp [ht], heq⟩

/-- An expression does not start before its tokens. -/
theorem IsExpr.start_le {e : Expr} {bound : Nat} (h : IsExpr ts e rest)
    (hbound : ∀ t ∈ ts, bound ≤ t.span.start) : bound ≤ e.span.start := by
  cases h with
  | quoted _ _ | hex _ _ | number _ _ | truth _ _ => exact hbound _ List.mem_cons_self
  | @path t ts rest segments kind word others =>
    refine Nat.le_min.2 ⟨hbound t List.mem_cons_self, ?_⟩
    cases segments using List.reverseRecOn with
    | nil => exact hbound t List.mem_cons_self
    | append_singleton segments last =>
      obtain ⟨s, hs, heq⟩ := others.span_mem last (by simp)
      rw [List.getLastD_concat, heq]
      exact hbound s (List.mem_cons_of_mem t hs)
  | call nameKind parenKind inner =>
    obtain ⟨t, ht, heq⟩ := inner.close_mem
    refine Nat.le_min.2 ⟨hbound _ List.mem_cons_self, ?_⟩
    rw [heq]
    exact hbound t (by simp [ht])

theorem current_mem (h : (Token.current ts).kind ≠ .endOfFile) : Token.current ts ∈ ts := by
  cases ts with
  | nil => exact absurd rfl h
  | cons t ts => exact List.mem_cons_self

/-- An expression starts where its first token does. -/
theorem IsExpr.start_eq {t : Token} {e : Expr} (h : IsExpr (t :: ts) e rest)
    (hordered : Ordered (t :: ts)) : e.span.start = t.span.start := by
  refine Nat.le_antisymm ?_ (h.start_le hordered.start_le)
  cases h with
  | quoted _ _ | hex _ _ | number _ _ | truth _ _ => exact Nat.le_refl _
  | path kind word others => exact Span.start_merge_le _ _
  | call nameKind parenKind inner => exact Span.start_merge_le _ _

/-- A value that is read has at least one token. -/
theorem used_of_readExpr {e : Expr} {n : Nat} (h : readExpr ts = (.ok e, n)) :
    ∃ t others m, ts = t :: others ∧ n = m + 1 := by
  cases ts with
  | nil => simp [readExpr] at h
  | cons t others =>
    refine ⟨t, others, n - 1, rfl, ?_⟩
    rw [readExpr] at h
    split at h
    · cases h; rfl
    · cases h; rfl
    · cases h; rfl
    · split at h
      · split at h <;> cases h
        rfl
      · split at h
        · cases h; rfl
        · split at h <;> cases h
          rfl
    · cases h

end Grammar

/-! ## Bodies -/

/-- Where the parts of an item begin: its name, and the value of an attribute. -/
def Item.marks : Item → List Nat
  | .assignment a => [a.name.span.start, a.value.span.start]
  | .block kind _ _ => [kind.span.start]

/-- The items are read from the first `n` of the tokens: their names are some of these, in their
order, and so are the first tokens of names and values.  Each item starts with its name. -/
structure Laid (last : Span) (ts : List Token) (n : Nat) (items : Body) : Prop where
  names : ((spreadAll items).map Item.name).Sublist ((ts.take n).map Ident.ofToken)
  marks : Lined last ts →
    ((spreadAll items).flatMap Item.marks).Sublist ((ts.take n).map fun t => t.span.start)
  starts : Lined last ts → ∀ item ∈ spreadAll items, item.span.start = item.name.span.start

section

variable {last : Span} {t : Token} {ts : List Token} {a b : Body} {m n : Nat}

theorem Laid.nil (last : Span) (ts : List Token) (n : Nat) : Laid last ts n [] :=
  ⟨List.nil_sublist _, fun _ => List.nil_sublist _, fun _ _ h => by cases h⟩

theorem Laid.append (ha : Laid last ts n a) (hb : Laid last (ts.drop n) m b) :
    Laid last ts (n + m) (a ++ b) where
  names := by
    rw [spreadAll_append, List.map_append, List.take_add, List.map_append]
    exact ha.names.append hb.names
  marks h := by
    rw [spreadAll_append, List.flatMap_append, List.take_add, List.map_append]
    exact (ha.marks h).append (hb.marks (h.sublist (List.drop_sublist n ts)))
  starts h x hx := by
    rw [spreadAll_append] at hx
    rcases List.mem_append.1 hx with hx | hx
    · exact ha.starts h x hx
    · exact hb.starts (h.sublist (List.drop_sublist n ts)) x hx

/-- An attribute is laid where its name, the sign behind it and its value are. -/
theorem laid_assignment (t : Token) {ts : List Token} {value : Expr} {n k : Nat}
    (hvalue : readExpr (ts.drop 1) = (.ok value, n)) (hk : n ≤ k) :
    Laid last (t :: ts) (2 + k) [.assignment ⟨.ofToken t, value, t.span.merge value.span⟩] := by
  obtain ⟨first, others, m, hts, rfl⟩ := Grammar.used_of_readExpr hvalue
  have hexpr := Grammar.isExpr_of_read hvalue
  rw [hts] at hexpr
  have hmem : first ∈ ts.take (1 + k) := by
    refine List.mem_of_mem_drop (i := 1) ?_
    rw [List.drop_take, hts, Nat.add_sub_cancel_left, show k = k - 1 + 1 by omega,
      List.take_succ_cons]
    exact List.mem_cons_self
  have hrest : (first :: others).Sublist (t :: ts) := by
    rw [← hts]
    exact (List.drop_sublist 1 ts).trans (List.sublist_cons_self t ts)
  have htake : (t :: ts).take (2 + k) = t :: ts.take (1 + k) := by
    rw [show 2 + k = 1 + k + 1 by omega, List.take_succ_cons]
  refine ⟨?_, fun h => ?_, fun h x hx => ?_⟩
  · rw [htake]
    exact .cons_cons _ (List.nil_sublist _)
  · have hstart := hexpr.start_eq (h.sublist hrest).ordered
    rw [htake]
    show [t.span.start, value.span.start].Sublist _
    rw [hstart]
    exact .cons_cons _ (List.singleton_sublist.2 (List.mem_map_of_mem hmem))
  · obtain rfl := List.mem_singleton.1 hx
    exact Nat.min_eq_left (hexpr.start_le fun s hs =>
      h.ordered.start_le s (hrest.subset hs))

theorem Laid.attribute (last : Span) (t : Token) (ts : List Token) :
    Laid last (t :: ts) (2 + (readAttribute (.ofToken t) (ts.drop 1)).used)
      (readAttribute (.ofToken t) (ts.drop 1)).items := by
  unfold readAttribute
  split
  · exact .nil _ _ _
  · split
    · exact .nil _ _ _
    · rename_i value n hvalue
      dsimp only
      split
      · exact laid_assignment t hvalue (Nat.le_refl n)
      · exact laid_assignment t hvalue (Nat.le_add_right n _)

/-- A block is laid where its name, its opening brace and its items are. -/
theorem Laid.block (h : Laid last (ts.drop 1) n a) (hn : 2 + n ≤ m) {span : Span}
    (hspan : Lined last (t :: ts) → t.span.start ≤ span.start) :
    Laid last (t :: ts) m [.block (.ofToken t) a (t.span.merge span)] := by
  obtain ⟨k, rfl⟩ : ∃ k, m = k + 1 := ⟨m - 1, by omega⟩
  have hinner : ((ts.drop 1).take n).Sublist (ts.take k) := by
    rw [List.take_drop]
    exact (List.drop_sublist 1 _).trans (List.take_sublist_take_left (by omega))
  have hspread : spreadAll [.block (.ofToken t) a (t.span.merge span)] =
      .block (.ofToken t) a (t.span.merge span) :: spreadAll a := by
    rw [spreadAll, Item.spread, spreadAll_nil, List.append_nil]
  have hsub : (ts.drop 1).Sublist (t :: ts) :=
    (List.drop_sublist 1 ts).trans (List.sublist_cons_self t ts)
  refine ⟨?_, fun hlined => ?_, fun hlined x hx => ?_⟩
  · rw [hspread, List.take_succ_cons]
    exact .cons_cons _ (h.names.trans (hinner.map _))
  · rw [hspread, List.take_succ_cons]
    exact .cons_cons _ ((h.marks (hlined.sublist hsub)).trans (hinner.map _))
  · rw [hspread] at hx
    rcases List.mem_cons.1 hx with rfl | hx
    · exact Nat.min_eq_left (hspan hlined)
    · exact h.starts (hlined.sublist hsub) x hx

/-- **Items are read in the order of the source.** -/
theorem laid_readBody (nested : Bool) (last : Span) (ts : List Token) :
    Laid last ts (readBody nested last ts).used (readBody nested last ts).items := by
  induction nested, ts using readBody.induct last with
  | case1 nested => rw [readBody]; exact .nil _ _ _
  | case2 nested t ts hk => rw [readBody_of_endOfFile hk]; exact .nil _ _ _
  | case3 nested t ts hk ih =>
    rw [readBody_of_newline hk]
    exact (Laid.nil last (t :: ts) 1).append ih
  | case4 t ts hk => rw [readBody_true_of_closeBrace hk]; exact .nil _ _ _
  | case5 nested t ts hk hnested ih =>
    obtain rfl : nested = false := by simpa using hnested
    rw [readBody_false_of_closeBrace hk]
    exact (Laid.nil last (t :: ts) 1).append ih
  | case6 nested t ts hk name hsign value ih =>
    rw [readBody_of_equals hk hsign]
    refine (Laid.attribute last t ts).append ?_
    rw [show 2 + (readAttribute (.ofToken t) (ts.drop 1)).used =
      1 + (readAttribute (.ofToken t) (ts.drop 1)).used + 1 by omega, List.drop_succ_cons]
    exact ih
  | case7 nested t ts hk hbrace inner close hclose ihInner ih =>
    rw [readBody_of_closed hk hbrace hclose]
    refine (Laid.block ihInner (by omega) fun h => ?_).append ?_
    · have hmem : close ∈ ts :=
        List.mem_of_mem_drop (Grammar.current_mem (by rw [hclose]; decide))
      exact h.ordered.start_le close (List.mem_cons_of_mem t hmem)
    · rw [show 3 + (readBody true last (ts.drop 1)).used =
        2 + (readBody true last (ts.drop 1)).used + 1 by omega, List.drop_succ_cons]
      exact ih
  | case8 nested t ts hk hbrace inner close hclose ihInner ih =>
    rw [readBody_of_unclosed hk hbrace hclose]
    refine (Laid.block ihInner (Nat.le_refl _) fun h => ?_).append ?_
    · exact h.bounded t List.mem_cons_self (by rw [hk]; decide)
    · rw [show 2 + (readBody true last (ts.drop 1)).used =
        1 + (readBody true last (ts.drop 1)).used + 1 by omega, List.drop_succ_cons]
      exact ih
  | case9 nested t ts hk hsign hbrace ih =>
    rw [readBody_of_noSign hk hsign hbrace]
    refine (Laid.nil last (t :: ts) _).append ?_
    rw [Nat.add_comm, List.drop_succ_cons]
    exact ih
  | case10 nested t ts hend hline hclose hname ih =>
    rw [readBody_of_noItem hend hline hclose hname]
    refine (Laid.nil last (t :: ts) _).append ?_
    rw [Nat.add_comm, List.drop_succ_cons]
    exact ih

end

section

variable (source : String)

theorem laid_read : Laid (lastSpan (tokenize source)) (tokenize source) (Body.read source).used
    (Body.read source).items :=
  laid_readBody false (lastSpan (tokenize source)) (tokenize source)

/-- **The items of a source begin one behind the other.** -/
theorem Body.read_ordered :
    (spreadAll (Body.read source).items).Pairwise fun i j =>
      i.name.span.start < j.name.span.start := by
  have hsub := (laid_read source).names.trans ((List.take_sublist _ _).map Ident.ofToken)
  have hordered : ((tokenize source).map Ident.ofToken).Pairwise fun s t =>
      s.span.start < t.span.start := List.pairwise_map.2 (ordered_tokenize source)
  have hspread := hordered.sublist hsub
  rw [List.pairwise_map] at hspread
  exact hspread

/-- An item of a source begins with its name. -/
theorem Body.read_start {item : Item} (h : item ∈ spreadAll (Body.read source).items) :
    item.span.start = item.name.span.start :=
  (laid_read source).starts (lined_tokenize source) item h

/-- The name of an item is a token of the source. -/
theorem Body.read_name {item : Item} (h : item ∈ spreadAll (Body.read source).items) :
    ∃ t ∈ tokenize source, item.name = Ident.ofToken t := by
  have hname := (laid_read source).names.subset (List.mem_map_of_mem h)
  obtain ⟨t, ht, heq⟩ := List.mem_map.1 hname
  exact ⟨t, List.mem_of_mem_take ht, heq.symm⟩

/-- The names and values of a source begin one behind the other. -/
theorem Body.read_marks :
    ((spreadAll (Body.read source).items).flatMap Item.marks).Pairwise (· < ·) := by
  have hsub := ((laid_read source).marks (lined_tokenize source)).trans
    ((List.take_sublist _ _).map _)
  exact (List.pairwise_map.2 (ordered_tokenize source)).sublist hsub

end

end ColorTheme
