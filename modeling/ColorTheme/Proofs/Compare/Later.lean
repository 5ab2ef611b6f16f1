import ColorTheme.Proofs.Item.Naming
import ColorTheme.Proofs.Compare.Alike
import ColorTheme.Proofs.Walk.Order

/-!
# What stands later in a block

Two lists of items that differ only in what starts behind a place are walked through alike up to
that place.  A frame looks ahead for one thing only, the paths that its block declares, and these
have no part but in the wording of an error.

* `Frame.follows_reworded` : frames of one rule that see the same earlier blocks come to the same
  verdicts, up to `Reworded`.
* `Later.parallel` : items that start no later than the place are visited in both walks, with the same
  verdicts up to that.
-/

set_option autoImplicit false

namespace ColorTheme

/-! ## Verdicts that look ahead -/

/-- The problem tells of the failure of the attribute of the block `enclosing`: as it is, or as a
circle through one of the references in the value. -/
def Attribute.Complains (a : Attribute) (enclosing : Path) (failure : EvalError)
    (problem : Problem) : Prop :=
  problem = .unresolved failure ∨ ∃ reference ∈ a.value.references, problem =
    .circular a.name.name reference (if reference.isPrefixOf enclosing then .encloses else .later)

/-- The verdicts on the item of the block `enclosing` are the same, or they reject its value for
the same failure. -/
inductive Reworded (enclosing : Path) (item : Item) : Verdict → Verdict → Prop
  | same (v : Verdict) : Reworded enclosing item v v
  | failed {a : Attribute} {failure : EvalError} {problem problem' : Problem}
      (assigned : item = .assignment a) (first : a.Complains enclosing failure problem)
      (second : a.Complains enclosing failure problem') :
      Reworded enclosing item (.rejected (some (enclosing ++ [a.name.name])) ⟨problem, a.value.span⟩)
        (.rejected (some (enclosing ++ [a.name.name])) ⟨problem', a.value.span⟩)

theorem Reworded.akin {enclosing : Path} {item : Item} {v w : Verdict}
    (h : Reworded enclosing item v w) : v.Akin w := by
  cases h with
  | same => exact .refl v
  | failed => exact ⟨rfl, rfl, rfl, rfl⟩

theorem Reworded.colored_iff {enclosing path : Path} {item : Item} {v w : Verdict} {name : Span}
    {location : ColorLocation} (h : Reworded enclosing item v w) :
    w = .colored path name location ↔ v = .colored path name location := by
  cases h with
  | same => exact .rfl
  | failed => exact ⟨nofun, nofun⟩

theorem Frame.complains_complaint (frame : Frame) (log : Log) (enclosing : Path) (a : Attribute)
    (failure : EvalError) :
    a.Complains enclosing failure (frame.complaint log enclosing a failure) := by
  unfold Frame.complaint
  split
  · dsimp only
    split
    · rename_i reference reason hpending
      obtain ⟨r, hr, hcycle⟩ := List.exists_of_findSome?_eq_some hpending
      obtain ⟨_, hreason, heq⟩ := Option.map_eq_some_iff.1 hcycle
      cases heq
      refine .inr ⟨reference, hr, ?_⟩
      unfold Frame.cycle? at hreason
      split at hreason
      · rename_i hprefix
        cases hreason
        rw [if_pos hprefix]
      · rename_i hprefix
        rw [if_neg hprefix]
        split at hreason <;> cases hreason
        rfl
    · exact .inl rfl
  · exact .inl rfl

section

variable {frame other : Frame} {p q : Progress}

theorem reworded_attributeVerdict (hrule : other.rule = frame.rule)
    (hearlier : other.earlier = frame.earlier) (h : p.Alike q) (enclosing : Path) (a : Attribute) :
    Reworded enclosing (.assignment a) (attributeVerdict frame p enclosing a)
      (attributeVerdict other q enclosing a) := by
  have hvisible : other.visible q.tree = frame.visible p.tree := by
    rw [Frame.visible, Frame.visible, hrule, hearlier, h.tree]
  unfold attributeVerdict
  dsimp only
  rw [hrule, hvisible, h.log.takes]
  split
  · exact .same _
  · split
    · exact .same _
    · split
      · split
        · exact .same _
        · exact .same _
        · exact .failed rfl (frame.complains_complaint ..) (other.complains_complaint ..)
      · split
        · exact .same _
        · exact .failed rfl (frame.complains_complaint ..) (other.complains_complaint ..)

/-- **Only in the wording of errors does a frame look ahead.** -/
theorem Frame.follows_reworded (hrule : other.rule = frame.rule)
    (hearlier : other.earlier = frame.earlier) : frame.Follows Reworded other where
  rule := hrule
  akin h := h.akin
  verdict hp enclosing item := by
    cases item with
    | assignment a => exact reworded_attributeVerdict hrule hearlier hp enclosing a
    | block kind body span =>
      have hsame := groupVerdict_alike hp.log frame.rule enclosing kind
      rw [Frame.verdict, Frame.verdict, hrule, hsame]
      exact .same _

end

/-! ## Items behind a place -/

/-- The items, and those inside of them, begin one behind the other. -/
def InOrder (items : List Item) : Prop :=
  (spreadAll items).Pairwise fun i j => i.span.start ≤ j.span.start

instance (items : List Item) : Decidable (InOrder items) :=
  inferInstanceAs (Decidable (List.Pairwise _ _))

/-- The items, and those inside of them, all start behind the place. -/
def Beyond (place : Nat) (items : List Item) : Prop :=
  ∀ item ∈ spreadAll items, place < item.span.start

/-- One of the items starts behind the place. -/
def Reaches (place : Nat) (items : List Item) : Prop := ∃ item ∈ items, place < item.span.start

/-- The second list comes from the first by deleting and adding items that start behind the place,
at any depth.  A block that is changed inside still begins where it did. -/
inductive Later (place : Nat) : List Item → List Item → Prop
  | nil : Later place [] []
  | keep (item : Item) {items items' : List Item} (rest : Later place items items') :
      Later place (item :: items) (item :: items')
  | delete (item : Item) {items items' : List Item} (behind : place < item.span.start)
      (rest : Later place items items') : Later place (item :: items) items'
  | add (item : Item) {items items' : List Item} (behind : place < item.span.start)
      (rest : Later place items items') : Later place items (item :: items')
  | within (kind : Ident) {inner inner' : List Item} {span span' : Span} {items items' : List Item}
      (start : span'.start = span.start) (inside : Later place inner inner')
      (rest : Later place items items') :
      Later place (.block kind inner span :: items) (.block kind inner' span' :: items')

section

variable {place : Nat} {items items' : List Item} {item : Item}

theorem Later.refl (place : Nat) (items : List Item) : Later place items items := by
  induction items with
  | nil => exact .nil
  | cons item items ih => exact .keep item ih

theorem InOrder.tail (h : InOrder (item :: items)) : InOrder items := by
  unfold InOrder at h
  rw [spreadAll] at h
  exact (List.pairwise_append.1 h).2.1

theorem InOrder.inner {kind : Ident} {inner : List Item} {span : Span}
    (h : InOrder (.block kind inner span :: items)) : InOrder inner := by
  unfold InOrder at h
  rw [spreadAll, Item.spread] at h
  exact (List.pairwise_cons.1 (List.pairwise_append.1 h).1).2

/-- The items in an item start no earlier than it, and so do the items behind it. -/
theorem InOrder.start_le (h : InOrder (item :: items)) :
    ∀ i ∈ spreadAll (item :: items), item.span.start ≤ i.span.start := by
  have hspread : ∃ rest, spreadAll (item :: items) = item :: rest := by
    cases item with
    | assignment a => exact ⟨_, rfl⟩
    | block kind inner span => exact ⟨_, rfl⟩
  obtain ⟨rest, hrest⟩ := hspread
  rw [InOrder, hrest, List.pairwise_cons] at h
  intro i hi
  rw [hrest] at hi
  rcases List.mem_cons.1 hi with rfl | hi
  · exact Nat.le_refl _
  · exact h.1 i hi

theorem InOrder.beyond (h : InOrder (item :: items)) (hplace : place < item.span.start) :
    Beyond place (item :: items) := fun i hi => Nat.lt_of_lt_of_le hplace (h.start_le i hi)

/-- All items start behind the place if one does in the item before them. -/
theorem InOrder.beyond_of_reaches (h : InOrder (item :: items)) (hitem : Reaches place item.spread) :
    Beyond place items := by
  obtain ⟨i, hi, hplace⟩ := hitem
  intro j hj
  unfold InOrder at h
  rw [spreadAll] at h
  exact Nat.lt_of_lt_of_le hplace ((List.pairwise_append.1 h).2.2 i hi j hj)

theorem Beyond.head (h : Beyond place (item :: items)) : place < item.span.start :=
  h item (mem_spreadAll_cons.2 (.inl item.mem_spread))

theorem Beyond.tail (h : Beyond place (item :: items)) : Beyond place items := by
  intro i hi
  exact h i (mem_spreadAll_cons.2 (.inr hi))

theorem Reaches.head (h : place < item.span.start) : Reaches place (spreadAll (item :: items)) :=
  ⟨item, mem_spreadAll_cons.2 (.inl item.mem_spread), h⟩

theorem Reaches.front (h : Reaches place items) : Reaches place (items ++ items') := by
  obtain ⟨i, hi, hplace⟩ := h
  exact ⟨i, List.mem_append_left _ hi, hplace⟩

theorem Reaches.behind (h : Reaches place items') : Reaches place (items ++ items') := by
  obtain ⟨i, hi, hplace⟩ := h
  exact ⟨i, List.mem_append_right _ hi, hplace⟩

theorem Reaches.inside {kind : Ident} {span : Span} (h : Reaches place (spreadAll items)) :
    Reaches place (Item.block kind items span).spread := by
  obtain ⟨i, hi, hplace⟩ := h
  exact ⟨i, List.mem_cons_of_mem _ hi, hplace⟩

/-- Where all that stands in the second list starts behind the place, all in the first does. -/
theorem Later.beyond (h : Later place items items') (horder : InOrder items)
    (h' : Beyond place items') : Beyond place items := by
  induction h with
  | nil => exact h'
  | keep item rest ih => exact horder.beyond h'.head
  | delete item behind rest ih => exact horder.beyond behind
  | add item behind rest ih => exact ih horder h'.tail
  | within kind start inside rest => exact horder.beyond (start ▸ h'.head)

end

/-! ## The walks -/

/-- What the first visits find on attributes that start no later than the place, the second find,
too. -/
def Reappear (R : Path → Item → Verdict → Verdict → Prop) (place : Nat) (vs ws : List Visit) :
    Prop :=
  ∀ v ∈ vs, v.item.span.start ≤ place → ∀ a, v.item = .assignment a → ∃ w ∈ ws, v.Matches R w

section

variable {R : Path → Item → Verdict → Verdict → Prop} {place : Nat} {vs ws vs' ws' : List Visit}

theorem reappear_nil : Reappear R place [] ws := fun _ hv => absurd hv List.not_mem_nil

/-- There is nothing to find on a block. -/
theorem Reappear.cons {v w : Visit} (h : Reappear R place vs ws)
    (hv : ∀ a, v.item ≠ .assignment a) : Reappear R place (v :: vs) (w :: ws) := by
  intro u hu hstart a ha
  rcases List.mem_cons.1 hu with rfl | hu
  · exact absurd ha (hv a)
  · obtain ⟨w', hw', hmatches⟩ := h u hu hstart a ha
    exact ⟨w', List.mem_cons_of_mem _ hw', hmatches⟩

theorem Reappear.append (h : Reappear R place vs ws) (h' : Reappear R place vs' ws') :
    Reappear R place (vs ++ vs') (ws ++ ws') := by
  intro v hv hstart a ha
  rcases List.mem_append.1 hv with hv | hv
  · obtain ⟨w, hw, hmatches⟩ := h v hv hstart a ha
    exact ⟨w, List.mem_append_left _ hw, hmatches⟩
  · obtain ⟨w, hw, hmatches⟩ := h' v hv hstart a ha
    exact ⟨w, List.mem_append_right _ hw, hmatches⟩

theorem reappear_of_forall₂ (h : List.Forall₂ (Visit.Matches R) vs ws) : Reappear R place vs ws := by
  induction h with
  | nil => exact reappear_nil
  | @cons v w vs ws hv _ ih =>
    intro u hu hstart a ha
    rcases List.mem_cons.1 hu with rfl | hu
    · exact ⟨w, List.mem_cons_self, hv⟩
    · obtain ⟨w', hw', hmatches⟩ := ih u hu hstart a ha
      exact ⟨w', List.mem_cons_of_mem _ hw', hmatches⟩

/-- There is nothing to find on items that start behind the place. -/
theorem reappear_of_beyond {items : List Item} (h : Beyond place items) (frame : Frame)
    (enclosing : Path) (p : Progress) :
    Reappear R place (visitsOfItems frame enclosing p items) ws := by
  intro v hv hstart
  have hitem : v.item ∈ spreadAll items :=
    (items_visitsOfItems_sublist frame enclosing p items).subset (List.mem_map_of_mem hv)
  exact absurd (h v.item hitem) (Nat.not_lt.2 hstart)

end

/-- From progresses that are alike, the walks through both lists find the same on attributes that
start no later than the place; and they end alike, unless one of the lists reaches behind it. -/
structure Parallel (R : Path → Item → Verdict → Verdict → Prop) (place : Nat) (frame other : Frame)
    (items items' : List Item) : Prop where
  found : ∀ (enclosing : Path) {p q : Progress}, p.Alike q →
    Reappear R place (visitsOfItems frame enclosing p items) (visitsOfItems other enclosing q items')
  done : ∀ (enclosing : Path) {p q : Progress}, p.Alike q →
    (walkItems frame enclosing p items).Alike (walkItems other enclosing q items') ∨
      Reaches place (spreadAll items) ∨ Reaches place (spreadAll items')

section

variable {R : Path → Item → Verdict → Verdict → Prop} {place : Nat} {frame other : Frame}
  {items items' inner inner' : List Item}

/-- Where the first items reach behind the place, nothing before it is behind them. -/
theorem Parallel.cons {item item' : Item}
    (hitem : ∀ (enclosing : Path) {p q : Progress}, p.Alike q →
      Reappear R place (visitsOfItem frame enclosing p item) (visitsOfItem other enclosing q item'))
    (hnext : ∀ (enclosing : Path) {p q : Progress}, p.Alike q →
      (walkItem frame enclosing p item).Alike (walkItem other enclosing q item') ∨
        Reaches place item.spread ∨ Reaches place item'.spread)
    (hbeyond : Reaches place item.spread ∨ Reaches place item'.spread → Beyond place items)
    (rest : Parallel R place frame other items items') :
    Parallel R place frame other (item :: items) (item' :: items') where
  found enclosing p q hp := by
    rw [visitsOfItems, visitsOfItems]
    refine (hitem enclosing hp).append ?_
    rcases hnext enclosing hp with halike | hreaches
    · exact rest.found enclosing halike
    · exact reappear_of_beyond (hbeyond hreaches) frame enclosing _
  done enclosing p q hp := by
    rw [walkItems, walkItems, spreadAll, spreadAll]
    rcases hnext enclosing hp with halike | hreaches
    · exact (rest.done enclosing halike).imp_right (.imp .behind .behind)
    · exact .inr (hreaches.imp .front .front)

/-- A block is opened in both walks or in neither. -/
theorem Parallel.block (h : Parallel R place frame other inner inner')
    (hrule : other.rule = frame.rule) (enclosing : Path) {p q : Progress} (hp : p.Alike q)
    (kind : Ident) (span span' : Span) :
    Reappear R place (visitsOfItem frame enclosing p (.block kind inner span))
        (visitsOfItem other enclosing q (.block kind inner' span')) ∧
      ((walkItem frame enclosing p (.block kind inner span)).Alike
          (walkItem other enclosing q (.block kind inner' span')) ∨
        Reaches place (spreadAll inner) ∨ Reaches place (spreadAll inner')) := by
  have hsame : groupVerdict other.rule q.log enclosing kind =
      groupVerdict frame.rule p.log enclosing kind := by
    rw [hrule, groupVerdict_alike hp.log]
  rw [visitsOfItem, visitsOfItem, walkItem, walkItem, hsame, hrule]
  cases groupVerdict frame.rule p.log enclosing kind with
  | opened path name =>
    have hnext : (p.record frame.rule (.opened path name)).Alike
        (q.record frame.rule (.opened path name)) := hp.record (.refl _)
    exact ⟨(h.found path hnext).cons (by rintro a ⟨⟩), h.done path hnext⟩
  | colored _ _ _ | flagged _ _ _ _ | noted _ _ _ | rejected _ _ | incomplete _ =>
    exact ⟨reappear_nil.cons (by rintro a ⟨⟩), .inl (hp.record (.refl _))⟩

/-- **The walks are parallel** through lists that differ only in what starts behind the place. -/
theorem Later.parallel (hfollows : frame.Follows R other) (h : Later place items items')
    (horder : InOrder items) (horder' : InOrder items') :
    Parallel R place frame other items items' := by
  -- once a list reaches behind the place, the walks may part, but then nothing up to it is left
  induction h with
  | nil =>
    constructor
    · intro enclosing p q hp
      exact reappear_nil
    · intro enclosing p q hp
      exact .inl hp
  | keep item rest ih =>
    refine .cons ?_ ?_ ?_ (ih horder.tail horder'.tail)
    · intro enclosing p q hp
      exact reappear_of_forall₂ (hfollows.visitsOfItem enclosing item hp)
    · intro enclosing p q hp
      exact .inl (hfollows.walkItem enclosing item hp)
    · intro hreaches
      exact horder.beyond_of_reaches (or_self_iff.1 hreaches)
  | delete item behind rest ih =>
    constructor
    · intro enclosing p q hp
      exact reappear_of_beyond (horder.beyond behind) frame enclosing p
    · intro enclosing p q hp
      exact .inr (.inl (.head behind))
  | add item behind rest ih =>
    have hbeyond := rest.beyond horder (horder'.beyond behind).tail
    constructor
    · intro enclosing p q hp
      exact reappear_of_beyond hbeyond frame enclosing p
    · intro enclosing p q hp
      exact .inr (.inr (.head behind))
  | within kind start inside rest ihInside ihRest =>
    have hinside := ihInside horder.inner horder'.inner
    refine .cons ?_ ?_ ?_ (ihRest horder.tail horder'.tail)
    · intro enclosing p q hp
      exact (hinside.block hfollows.rule enclosing hp kind _ _).1
    · intro enclosing p q hp
      obtain ⟨-, hdone⟩ := hinside.block hfollows.rule enclosing hp kind _ _
      exact hdone.imp_right (.imp .inside .inside)
    · rintro (hreaches | hreaches)
      · exact horder.beyond_of_reaches hreaches
      · exact rest.beyond horder.tail (horder'.beyond_of_reaches hreaches)

end

end ColorTheme
