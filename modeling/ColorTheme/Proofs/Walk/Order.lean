import ColorTheme.Proofs.Item.SourceOrder
import ColorTheme.Proofs.Walk.Chapter
import Mathlib.Data.List.Nodup

/-!
# The order of visits

* `items_visitsOfItems_sublist` : items are visited in the order in which they begin, each at most
  once.
* `BlockTable.Before` : one rule comes before another in the table.
* `Analysis.mem_chapters_before_iff` : the chapters before a chapter are those of earlier rules.
* `Analysis.visits_ordered` : in the chapters of a source, what is visited earlier starts earlier.
* `Analysis.mem_visits_before_iff` : so the visits before a visit are those that start before it.
-/

set_option autoImplicit false

namespace ColorTheme

mutual

theorem items_visitsOfItem_sublist (frame : Frame) : ∀ (enclosing : Path) (p : Progress)
    (item : Item), ((visitsOfItem frame enclosing p item).map Visit.item).Sublist item.spread
  | enclosing, p, .assignment a => .refl _
  | enclosing, p, .block kind body span => by
    rw [visitsOfItem, Item.spread]
    refine .cons_cons _ ?_
    cases groupVerdict frame.rule p.log enclosing kind with
    | opened path name =>
      exact items_visitsOfItems_sublist frame path (p.record frame.rule (.opened path name)) body
    | colored _ _ _ | flagged _ _ _ _ | noted _ _ _ | rejected _ _ | incomplete _ =>
      exact List.nil_sublist _

theorem items_visitsOfItems_sublist (frame : Frame) : ∀ (enclosing : Path) (p : Progress)
    (items : List Item),
    ((visitsOfItems frame enclosing p items).map Visit.item).Sublist (spreadAll items)
  | _, _, [] => .slnil
  | enclosing, p, item :: items => by
    rw [visitsOfItems, List.map_append, spreadAll]
    exact (items_visitsOfItem_sublist frame enclosing p item).append
      (items_visitsOfItems_sublist frame enclosing (walkItem frame enclosing p item) items)

end

/-! ## Rules in the order of the table -/

/-- In the table, the rule `r` comes before the rule `s`. -/
def BlockTable.Before (table : BlockTable) (r s : BlockRule) : Prop := [r, s].Sublist table

instance (table : BlockTable) (r s : BlockRule) : Decidable (table.Before r s) :=
  inferInstanceAs (Decidable (List.Sublist _ _))

theorem pair_sublist_cons {α : Type} {x a b : α} {xs : List α} :
    [a, b].Sublist (x :: xs) ↔ (a = x ∧ b ∈ xs) ∨ [a, b].Sublist xs := by
  rw [List.sublist_cons_iff]
  constructor
  · rintro (h | ⟨r, heq, h⟩)
    · exact .inr h
    · obtain ⟨rfl, rfl⟩ := List.cons.inj heq
      exact .inl ⟨rfl, List.singleton_sublist.1 h⟩
  · rintro (⟨rfl, h⟩ | h)
    · exact .inr ⟨[b], rfl, List.singleton_sublist.2 h⟩
    · exact .inl h

/-- Where nothing stands twice, only one of two things comes before the other. -/
theorem not_pair_sublist_of_nodup {α : Type} {a b : α} {xs : List α} (h : xs.Nodup)
    (hab : [a, b].Sublist xs) : ¬ [b, a].Sublist xs := by
  induction xs with
  | nil => cases hab
  | cons x xs ih =>
    obtain ⟨hx, hxs⟩ := List.nodup_cons.1 h
    intro hba
    rw [pair_sublist_cons] at hab hba
    rcases hab with ⟨rfl, hb⟩ | hab
    · rcases hba with ⟨rfl, -⟩ | hba
      · exact hx hb
      · exact hx (hba.subset (by simp))
    · rcases hba with ⟨rfl, -⟩ | hba
      · exact hx (hab.subset (by simp))
      · exact ih hxs hab hba

namespace Analysis

variable {table : BlockTable} {body : Body} {before behind : List Chapter} {c e : Chapter}

/-- **The chapters before a chapter are those of the rules before its rule.** -/
theorem mem_chapters_before_iff (hnodup : table.Nodup)
    (h : chapters table body = before ++ c :: behind) (he : e ∈ chapters table body) :
    e ∈ before ↔ table.Before e.rule c.rule := by
  have hsub : (before.map Chapter.rule ++ c.rule :: behind.map Chapter.rule).Sublist table := by
    have := rule_chapters_sublist table body
    rwa [h, List.map_append, List.map_cons] at this
  constructor
  · intro hbefore
    refine .trans ?_ hsub
    exact (List.singleton_sublist.2 (List.mem_map_of_mem hbefore)).append
      (.cons_cons c.rule (List.nil_sublist _))
  · intro hrules
    rw [h] at he
    rcases List.mem_append.1 he with he | he
    · exact he
    · have hce : e = c ∨ [c.rule, e.rule].Sublist table := by
        rcases List.mem_cons.1 he with rfl | he
        · exact .inl rfl
        · refine .inr (.trans ?_ hsub)
          exact (List.Sublist.cons_cons _
            (List.singleton_sublist.2 (List.mem_map_of_mem he))).trans
            (List.sublist_append_right _ _)
      rcases hce with rfl | hce
      · exact absurd hrules (not_pair_sublist_of_nodup hnodup hrules)
      · exact absurd hce (not_pair_sublist_of_nodup hnodup hrules)

/-- Chapters of one rule are one chapter. -/
theorem eq_of_rule_eq (hnodup : table.Nodup) (hc : c ∈ chapters table body)
    (he : e ∈ chapters table body) (h : e.rule = c.rule) : e = c :=
  List.inj_on_of_nodup_map (hnodup.sublist (rule_chapters_sublist table body)) he hc h

/-! ## Chapters of a source -/

section

variable {source : String} {d v : Visit} {a : Attribute}

theorem items_visits_sublist (h : c ∈ chapters table body) :
    (c.visits.map Visit.item).Sublist (spreadAll body) := by
  have hblock := block?_of_mem_chapters h
  exact (items_visitsOfItems_sublist c.frame [c.rule.name] c.start c.block.body).trans
    (spreadAll_sublist_of_mem (List.mem_of_find?_eq_some hblock))

/-- **What is visited earlier starts earlier.** -/
theorem visits_ordered (h : c ∈ chapters table (Body.read source).items) :
    c.visits.Pairwise fun d v => d.item.name.span.start < v.item.name.span.start := by
  have hpairs := (Body.read_ordered source).sublist (items_visits_sublist h)
  rw [List.pairwise_map] at hpairs
  exact hpairs

/-- Of the visits of a chapter, those before a visit are those that start before it. -/
theorem mem_visits_before_iff {earlier later : List Visit}
    (h : c ∈ chapters table (Body.read source).items) (hvisits : c.visits = earlier ++ v :: later)
    (hd : d ∈ c.visits) :
    d ∈ earlier ↔ d.item.name.span.start < v.item.name.span.start := by
  have hordered := visits_ordered h
  rw [hvisits] at hordered hd
  obtain ⟨-, hlater, hcross⟩ := List.pairwise_append.1 hordered
  constructor
  · exact fun hdearlier => hcross d hdearlier v List.mem_cons_self
  · intro hlt
    rcases List.mem_append.1 hd with hd | hd
    · exact hd
    · rcases List.mem_cons.1 hd with rfl | hd
      · omega
      · have := List.rel_of_pairwise_cons hlater hd
        omega

theorem start_of_visited (h : c ∈ chapters table (Body.read source).items) (hv : v ∈ c.visits)
    (ha : v.item = .assignment a) : a.span.start = v.item.name.span.start := by
  have hitem : v.item ∈ spreadAll (Body.read source).items :=
    (items_visits_sublist h).subset (List.mem_map_of_mem hv)
  rw [ha] at hitem ⊢
  exact Body.read_start source hitem

end

end Analysis

end ColorTheme
