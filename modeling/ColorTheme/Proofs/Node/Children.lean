import ColorTheme.Proofs.Entries
import ColorTheme.Proofs.Node.Lookup

/-!
# The children of a node

What updates leave in a tree, told node by node: which children a node has and in which order, and
that a color is found in or below each node that was made on the way.

* `Node.childNames_setColor_of_next`, `Node.childNames_setColor_of_not_next` : an update that leads
  through a node adds the next name behind its children, if it is new, and moves none of them.
* `Node.childNames_painted` : so after updates the children of a node are the next names of all
  that lead through it, each where it came first.
* `Node.Same` : trees that differ in nothing but the order of children.
* `Node.exists_colorAt_painted` : updates at different paths leave no node without a color in it
  or below it, but for a root without children.
-/

set_option autoImplicit false

namespace ColorTheme

/-- One more thing goes behind the others, unless it is there already. -/
theorem eraseDups_concat {α : Type} [DecidableEq α] (xs : List α) (x : α) :
    (xs ++ [x]).eraseDups = if x ∈ xs then xs.eraseDups else xs.eraseDups ++ [x] := by
  have hone : [x].eraseDups = [x] := by simp [List.eraseDups_cons]
  rw [List.eraseDups_append]
  split <;> simp_all [List.removeAll]

theorem nodup_eraseDups {α : Type} [DecidableEq α] (xs : List α) : xs.eraseDups.Nodup := by
  induction xs using List.reverseRecOn with
  | nil => exact List.nodup_nil
  | append_singleton xs x ih =>
    rw [eraseDups_concat]
    split
    · exact ih
    · rename_i hnew
      rw [List.nodup_append]
      refine ⟨ih, List.nodup_singleton x, ?_⟩
      rintro y hy z hz rfl
      rw [List.mem_singleton.1 hz, List.mem_eraseDups] at hy
      exact hnew hy

namespace Node

variable {n m : Node} {name : String} {path target : List String}

/-- The names of the children of the node that `path` leads to, in their order. -/
def childNames (n : Node) (path : List String) : List String :=
  ((n.get? path).getD blank).children.keys

/-- The name that stands behind `path` on the way to `target`, if this way leads there. -/
def nextName? : List String → List String → Option String
  | [], target => target.head?
  | _ :: _, [] => none
  | name :: path, first :: target => if first = name then nextName? path target else none

theorem nextName?_eq_some_iff : nextName? path target = some name ↔ path ++ [name] <+: target := by
  fun_induction nextName? path target with
  | case1 target => cases target <;> simp [eq_comm]
  | case2 => simp
  | case3 path first target ih => simpa [List.cons_prefix_cons] using ih
  | case4 other path first target h => simp [List.cons_prefix_cons, Ne.symm h]

theorem childNames_of_get? (h : n.get? path = some m) : n.childNames path = m.children.keys := by
  rw [childNames, h, Option.getD_some]

@[simp] theorem childNames_blank (path : List String) : blank.childNames path = [] := by
  cases path <;> rfl

theorem childNames_cons (n : Node) (name : String) (path : List String) :
    n.childNames (name :: path) = ((n.child? name).getD blank).childNames path := by
  rw [childNames, get?_cons]
  cases n.child? name with
  | none =>
    rw [Option.getD_none, childNames_blank]
    rfl
  | some child => rfl

/-- The trees are equal but for the order of children. -/
inductive Same : Node → Node → Prop
  | mk {own : Option Color} {children others : Entries String Node}
      (h : Entries.Matches Same children others) : Same ⟨own, children⟩ ⟨own, others⟩

theorem Same.refl (n : Node) : n.Same n := by
  obtain ⟨own, children⟩ := n
  refine .mk (.refl fun child hchild => ?_)
  obtain ⟨name, child⟩ := child
  exact Same.refl child
termination_by sizeOf n
decreasing_by
  have hsize := List.sizeOf_lt_of_mem hchild
  simp only [Prod.mk.sizeOf_spec] at hsize
  simp only [Node.mk.sizeOf_spec]
  omega

/-! ## One update -/

theorem childNames_setColor_cons_self (n : Node) (name : String) (target path : List String)
    (c : Option Color) : (n.setColor (name :: target) c).childNames (name :: path) =
      (((n.child? name).getD blank).setColor target c).childNames path := by
  rw [childNames_cons, child?_setColor_self, Option.getD_some]

theorem childNames_setColor_cons_of_ne {other : String} (h : other ≠ name) (n : Node)
    (target path : List String) (c : Option Color) :
    (n.setColor (name :: target) c).childNames (other :: path) = n.childNames (other :: path) := by
  rw [childNames_cons, childNames_cons, child?_setColor_of_ne h]

/-- An update that leads through a node and on to a child leaves its other children in place, and
puts the child behind them, unless it is one of them. -/
theorem childNames_setColor_of_next (h : nextName? path target = some name) (n : Node)
    (c : Option Color) : (n.setColor target c).childNames path =
      if name ∈ n.childNames path then n.childNames path else n.childNames path ++ [name] := by
  fun_induction nextName? path target generalizing n with
  | case1 target =>
    obtain ⟨rest, rfl⟩ := List.head?_eq_some_iff.1 h
    obtain ⟨color, children⟩ := n
    split
    · rename_i hmem
      exact Entries.keys_alter_of_mem hmem _
    · rename_i hnew
      exact Entries.keys_alter_of_not_mem hnew _
  | case2 => cases h
  | case3 path first target ih =>
    rw [childNames_setColor_cons_self, childNames_cons]
    exact ih h _
  | case4 other path first target hne => cases h

/-- An update that does not lead on through a node leaves its children as they are. -/
theorem childNames_setColor_of_not_next (h : nextName? path target = none) (n : Node)
    (c : Option Color) : (n.setColor target c).childNames path = n.childNames path := by
  fun_induction nextName? path target generalizing n with
  | case1 target =>
    obtain rfl := List.head?_eq_none_iff.1 h
    cases n
    rfl
  | case2 name path => rw [setColor_nil, childNames_cons, child?_withColor, ← childNames_cons]
  | case3 path first target ih =>
    rw [childNames_setColor_cons_self, childNames_cons]
    exact ih h _
  | case4 other path first target hne =>
    exact childNames_setColor_cons_of_ne (Ne.symm hne) n target path c

/-! ## Many updates -/

variable {marks : List (List String × Color)}

theorem painted_concat (n : Node) (marks : List (List String × Color))
    (mark : List String × Color) :
    n.painted (marks ++ [mark]) = (n.painted marks).setColor mark.1 (some mark.2) := by
  rw [painted_append]
  rfl

/-- **The children of a node stand in the order of the first updates that led to them.** -/
theorem childNames_painted (marks : List (List String × Color)) (path : List String) :
    (blank.painted marks).childNames path =
      (marks.filterMap fun mark => nextName? path mark.1).eraseDups := by
  induction marks using List.reverseRecOn with
  | nil => exact childNames_blank path
  | append_singleton marks mark ih =>
    rw [painted_concat, List.filterMap_append]
    cases hnext : nextName? path mark.1 with
    | none =>
      rw [childNames_setColor_of_not_next hnext, ih]
      simp [hnext]
    | some name =>
      have hlast : [mark].filterMap (fun mark => nextName? path mark.1) = [name] := by
        simp [hnext]
      rw [childNames_setColor_of_next hnext, ih, hlast, eraseDups_concat]
      simp only [List.mem_eraseDups]

theorem colorAt_of_get? (h : n.get? path = some m) (rest : List String) :
    n.colorAt (path ++ rest) = m.colorAt rest := by
  rw [colorAt, get?_append, h, Option.bind_some, colorAt]

/-- Some update leads through each node, but for a root without children. -/
theorem exists_mark_of_get? (h : (blank.painted marks).get? path = some m)
    (hroot : path ≠ [] ∨ m.children ≠ []) : ∃ mark ∈ marks, path <+: mark.1 := by
  by_cases hpath : path = []
  · subst hpath
    have hchildren : m.children ≠ [] := by simpa using hroot
    obtain ⟨⟨name, child⟩, rest, hcons⟩ := List.exists_cons_of_ne_nil hchildren
    have hmem : name ∈ (blank.painted marks).childNames [] := by
      rw [childNames_of_get? h, hcons]
      exact List.mem_cons_self
    rw [childNames_painted, List.mem_eraseDups, List.mem_filterMap] at hmem
    obtain ⟨mark, hmark, -⟩ := hmem
    exact ⟨mark, hmark, List.nil_prefix⟩
  · have hsome : ((blank.painted marks).get? path).isSome := by
      rw [h]
      rfl
    exact ((get?_painted_isSome marks path).1 hsome).resolve_left hpath

/-- **No node is empty.**  In or below each node a color is found, but for a root without
children. -/
theorem exists_colorAt_painted (hmarks : (marks.map Prod.fst).Nodup)
    (h : (blank.painted marks).get? path = some m) (hroot : path ≠ [] ∨ m.children ≠ []) :
    ∃ rest c, m.colorAt rest = some c := by
  obtain ⟨⟨target, c⟩, hmark, rest, rfl⟩ := exists_mark_of_get? h hroot
  refine ⟨rest, c, ?_⟩
  rw [← colorAt_of_get? h]
  exact (colorAt_painted hmarks _ _).2 hmark

/-! ## What a color below a node means for its shape -/

theorem shape_eq_empty_iff : n.shape = .empty ↔ n.color = none ∧ n.children = [] := by
  unfold shape
  split <;> simp_all

theorem child?_of_children_nil (h : n.children = []) (name : String) : n.child? name = none := by
  rw [child?, h]
  rfl

/-- A color found in or below a node is its own, or that of a node below one of its children. -/
theorem color_or_below {rest : List String} {c : Color} (h : n.colorAt rest = some c) :
    n.color = some c ∨ n.children ≠ [] ∧ ∃ name below, n.colorAt (name :: below) = some c := by
  cases rest with
  | nil => exact .inl h
  | cons name below =>
    refine .inr ⟨?_, name, below, h⟩
    intro hchildren
    rw [colorAt_cons_of_child?_none (child?_of_children_nil hchildren name)] at h
    cases h

end Node

end ColorTheme
