import ColorTheme.Proofs.Node.Reference
import ColorTheme.Proofs.Walk.Judged
import Mathlib.Data.List.Induction
import Mathlib.Data.List.Pairwise

/-!
# What holds along a tour

A tour is what the walk through a block leaves behind: visits that are decided one after the other
and that stay inside the block.  Whatever a tour has, each of its beginnings has.

* `Tour.taken_pairwise` : no path is taken twice.
* `Tour.enclosing_eq` : a visited item lies in the block of the rule, inside blocks that are not
  called `color`.
* `tour_visitsOfItems` : the walk through a block is a tour.
-/

set_option autoImplicit false

namespace ColorTheme

/-- The first visit opens a block in which the item of the second stands. -/
def Visit.Opens (b v : Visit) : Prop :=
  ∃ kind body span name, b.item = .block kind body span ∧ v.item ∈ body ∧
    b.verdict = .opened v.enclosing name

/-- Each visit is to one of the items of the block `enclosing`, or to an item of a block that a
visit before it opened. -/
def Nested (enclosing : Path) (items : List Item) (visits : List Visit) : Prop :=
  ∀ before v behind, visits = before ++ v :: behind →
    (v.enclosing = enclosing ∧ v.item ∈ items) ∨ ∃ b ∈ before, b.Opens v

/-- Visits inside the block of a frame, which has the given items, each with the verdict that it
must have. -/
structure Tour (frame : Frame) (start : Progress) (items : List Item) (visits : List Visit) :
    Prop where
  decided : Decided frame start visits
  rule : ∀ v ∈ visits, v.rule = frame.rule
  nested : Nested [frame.rule.name] items visits

/-! ## The walk is a tour -/

/-- A place in two lists, one behind the other, is a place in one of them. -/
theorem append_eq_append_cons {α : Type} {a b before behind : List α} {x : α}
    (h : a ++ b = before ++ x :: behind) :
    (∃ rest, a = before ++ x :: rest) ∨ ∃ others, before = a ++ others ∧ b = others ++ x :: behind := by
  rcases List.append_eq_append_iff.1 h with ⟨c, rfl, rfl⟩ | ⟨c, rfl, hc⟩
  · exact .inr ⟨c, rfl, rfl⟩
  · cases c with
    | nil => exact .inr ⟨[], by simp, hc.symm⟩
    | cons y c =>
      obtain ⟨rfl, -⟩ := List.cons.inj hc
      exact .inl ⟨c, rfl⟩

theorem Nested.append {enclosing : Path} {i j : List Item} {a b : List Visit}
    (ha : Nested enclosing i a) (hb : Nested enclosing j b) :
    Nested enclosing (i ++ j) (a ++ b) := by
  intro before v behind h
  rcases append_eq_append_cons h with ⟨rest, h'⟩ | ⟨others, rfl, h'⟩
  · rcases ha before v rest h' with ⟨heq, hv⟩ | hx
    · exact .inl ⟨heq, List.mem_append_left j hv⟩
    · exact .inr hx
  · rcases hb others v behind h' with ⟨heq, hv⟩ | ⟨x, hx, hopens⟩
    · exact .inl ⟨heq, List.mem_append_right i hv⟩
    · exact .inr ⟨x, List.mem_append_right a hx, hopens⟩

/-- Visits inside a block that a first visit opens. -/
theorem Nested.cons {v : Visit} {kind : Ident} {body : List Item} {span name : Span} {path : Path}
    {visits : List Visit} (hitem : v.item = .block kind body span)
    (hv : v.verdict = .opened path name) (h : Nested path body visits) :
    Nested v.enclosing [v.item] (v :: visits) := by
  intro before w behind heq
  cases before with
  | nil =>
    obtain ⟨rfl, -⟩ := List.cons.inj heq
    exact .inl ⟨rfl, List.mem_singleton_self _⟩
  | cons x before =>
    obtain ⟨rfl, hvisits⟩ := List.cons.inj heq
    rcases h before w behind hvisits with ⟨hw, hbody⟩ | ⟨b, hb, hw⟩
    · exact .inr ⟨v, List.mem_cons_self, kind, body, span, name, hitem, hbody, by rw [hv, hw]⟩
    · exact .inr ⟨b, List.mem_cons_of_mem v hb, hw⟩

theorem Nested.singleton (v : Visit) : Nested v.enclosing [v.item] [v] := by
  intro before w behind heq
  cases before with
  | nil =>
    obtain ⟨rfl, -⟩ := List.cons.inj heq
    exact .inl ⟨rfl, List.mem_singleton_self _⟩
  | cons x before => simp at heq

mutual

theorem nested_visitsOfItem (frame : Frame) : ∀ (enclosing : Path) (p : Progress) (item : Item),
    Nested enclosing [item] (visitsOfItem frame enclosing p item)
  | enclosing, p, .assignment a => .singleton ⟨frame.rule, enclosing, .assignment a, _⟩
  | enclosing, p, .block kind body span => by
    rw [visitsOfItem]
    cases h : groupVerdict frame.rule p.log enclosing kind with
    | opened path name =>
      have hbody := nested_visitsOfItems frame path (p.record frame.rule (.opened path name)) body
      exact Nested.cons (v := ⟨frame.rule, enclosing, .block kind body span, .opened path name⟩)
        rfl rfl hbody
    | colored _ _ _ | flagged _ _ _ _ | noted _ _ _ | rejected _ _ | incomplete _ =>
      exact .singleton ⟨frame.rule, enclosing, .block kind body span, _⟩

theorem nested_visitsOfItems (frame : Frame) : ∀ (enclosing : Path) (p : Progress)
    (items : List Item), Nested enclosing items (visitsOfItems frame enclosing p items)
  | _, _, [] => by intro before v behind h; simp [visitsOfItems] at h
  | enclosing, p, item :: items => by
    rw [visitsOfItems]
    exact (nested_visitsOfItem frame enclosing p item).append
      (nested_visitsOfItems frame enclosing (walkItem frame enclosing p item) items)

end

mutual

theorem rule_of_visitsOfItem (frame : Frame) : ∀ (enclosing : Path) (p : Progress) (item : Item),
    ∀ v ∈ visitsOfItem frame enclosing p item, v.rule = frame.rule
  | enclosing, p, .assignment a => by simp [visitsOfItem]
  | enclosing, p, .block kind body span => by
    rw [visitsOfItem]
    cases h : groupVerdict frame.rule p.log enclosing kind with
    | opened path name =>
      exact List.forall_mem_cons.2 ⟨rfl,
        rule_of_visitsOfItems frame path (p.record frame.rule (.opened path name)) body⟩
    | colored _ _ _ | flagged _ _ _ _ | noted _ _ _ | rejected _ _ | incomplete _ => simp

theorem rule_of_visitsOfItems (frame : Frame) : ∀ (enclosing : Path) (p : Progress)
    (items : List Item), ∀ v ∈ visitsOfItems frame enclosing p items, v.rule = frame.rule
  | _, _, [] => by simp [visitsOfItems]
  | enclosing, p, item :: items => by
    rw [visitsOfItems]
    exact List.forall_mem_append.2 ⟨rule_of_visitsOfItem frame enclosing p item,
      rule_of_visitsOfItems frame enclosing (walkItem frame enclosing p item) items⟩

end

/-- **The walk through a block is a tour.** -/
theorem tour_visitsOfItems (frame : Frame) (start : Progress) (items : List Item) :
    Tour frame start items (visitsOfItems frame [frame.rule.name] start items) :=
  ⟨decided_visitsOfItems frame _ start items, rule_of_visitsOfItems frame _ start items,
    nested_visitsOfItems frame _ start items⟩

namespace Tour

variable {frame : Frame} {start : Progress} {items : List Item}
  {visits before behind : List Visit} {v w : Visit}

theorem beginning (h : Tour frame start items (before ++ behind)) : Tour frame start items before where
  decided := ((decided_append start before behind).1 h.decided).1
  rule v hv := h.rule v (List.mem_append_left behind hv)
  nested b v r heq := h.nested b v (r ++ behind) (by rw [heq]; simp)

/-- The verdict on an item depends on the visits before it only. -/
theorem judged (h : Tour frame start items (before ++ v :: behind)) :
    Judged frame (start.after frame.rule before) v.enclosing v.item v.verdict := by
  rw [h.decided.verdict_eq]
  exact ColorTheme.judged _ _ _ _

theorem exists_judged (h : Tour frame start items visits) (hv : v ∈ visits) :
    ∃ p, Judged frame p v.enclosing v.item v.verdict := by
  obtain ⟨before, behind, rfl⟩ := List.append_of_mem hv
  exact ⟨_, h.judged⟩

/-! ## Taken paths -/

theorem path_of_taken (h : Tour frame start items visits) (hv : v ∈ visits) {path : Path}
    (ht : v.verdict.taken? = some path) : path = v.path := by
  obtain ⟨p, hp⟩ := h.exists_judged hv
  exact (hp.taken ht).1

/-- **No path is taken twice.** -/
theorem taken_pairwise (h : Tour frame start items visits) :
    visits.Pairwise fun v w => ∀ path, v.verdict.taken? = some path →
      w.verdict.taken? ≠ some path := by
  induction visits using List.reverseRecOn with
  | nil => exact .nil
  | append_singleton visits w ih =>
    refine List.pairwise_append.2 ⟨ih h.beginning, List.pairwise_singleton _ w, ?_⟩
    intro v hv u hu path htaken hu'
    obtain rfl := List.mem_singleton.1 hu
    have hfree := (h.judged.taken hu').2
    rw [Progress.log_after, Log.takes, List.any_append, Bool.or_eq_false_iff] at hfree
    have : (visits.map Visit.verdict).any (fun v => v.taken? == some path) = true :=
      List.any_eq_true.2 ⟨v.verdict, List.mem_map_of_mem hv, by simp [htaken]⟩
    rw [hfree.2] at this
    cases this

/-- Two visits that take the same path are one visit. -/
theorem eq_of_taken (h : Tour frame start items visits) (hv : v ∈ visits) (hw : w ∈ visits) {path : Path}
    (htv : v.verdict.taken? = some path) (htw : w.verdict.taken? = some path) : v = w := by
  by_contra hne
  have hsymm : Std.Symm fun v w : Visit => ∀ path, v.verdict.taken? = some path →
      w.verdict.taken? ≠ some path := ⟨fun a b hab path hb ha => hab path ha hb⟩
  exact h.taken_pairwise.forall hv hw hne path htv htw

/-! ## Enclosing blocks -/

/-- A visited item lies inside the block of the rule, and the blocks on the way to it are not
called `color`.  If there are any, the rule lets blocks stand in blocks. -/
theorem enclosing_eq (h : Tour frame start items visits) (hv : v ∈ visits) :
    ∃ names, v.enclosing = frame.rule.name :: names ∧ colorKey ∉ names ∧
      (names ≠ [] → frame.rule.nesting = true) := by
  induction visits using List.reverseRecOn generalizing v with
  | nil => cases hv
  | append_singleton visits w ih =>
    rcases List.mem_append.1 hv with hv | hv
    · exact ih h.beginning hv
    · obtain rfl := List.mem_singleton.1 hv
      rcases h.nested visits v [] rfl with ⟨heq, -⟩ | ⟨b, hb, _, _, _, name, -, -, hopened⟩
      · exact ⟨[], heq, by simp, by simp⟩
      · obtain ⟨names, henc, hnames, -⟩ := ih h.beginning hb
        obtain ⟨p, hp⟩ := h.beginning.exists_judged hb
        rw [hopened] at hp
        obtain ⟨hpath, hnesting, hname⟩ := hp.of_opened
        refine ⟨names ++ [b.item.name.name], by rw [hpath, henc]; rfl, ?_, fun _ => hnesting⟩
        simp [hnames, Ne.symm hname]

/-- In a block that holds no blocks, what is visited is an item of the block itself. -/
theorem mem_of_flat (h : Tour frame start items visits) (hflat : frame.rule.nesting = false)
    (hv : v ∈ visits) : v.enclosing = [frame.rule.name] ∧ v.item ∈ items := by
  obtain ⟨before, behind, rfl⟩ := List.append_of_mem hv
  rcases h.nested before v behind rfl with hroot | ⟨b, hb, _, _, _, name, -, -, hopened⟩
  · exact hroot
  · obtain ⟨p, hp⟩ := h.exists_judged (List.mem_append_left _ hb)
    rw [hopened] at hp
    obtain ⟨-, hnesting, -⟩ := hp.of_opened
    rw [hflat] at hnesting
    cases hnesting

end Tour

end ColorTheme
