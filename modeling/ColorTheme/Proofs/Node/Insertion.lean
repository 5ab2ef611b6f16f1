import ColorTheme.Proofs.Node.Children

/-!
# Coloring a node is an update

To give the node at a path its own color is an update of the tree, as writing a key is one of a map.

* `Node.exists_new_childNames` : of each node the children stay in their order, and at most one new
  child goes behind them.
* `Node.setColor_comm` : updates at two paths leave the same tree in either order, but for the order
  of children.
* `Node.Recolors`, `Node.setColor_exact` : all that an update does.
-/

set_option autoImplicit false

namespace ColorTheme.Node

variable {n : Node} {p q target : List String} {c d : Option Color}

/-! ## The order of children -/

/-- An update leaves the children of a node in their order.  If it goes on from there to a child that
is missing, this child is made and goes last. -/
theorem exists_new_childNames (n : Node) (target path : List String) (c : Option Color) :
    ∃ new, (n.setColor target c).childNames path = n.childNames path ++ new ∧ new.length ≤ 1 ∧
      ∀ name ∈ new, path ++ [name] <+: target ∧ name ∉ n.childNames path := by
  cases hnext : nextName? path target with
  | none => exact ⟨[], by simp [childNames_setColor_of_not_next hnext], by simp, by simp⟩
  | some name =>
    have hnames := childNames_setColor_of_next hnext n c
    by_cases hmem : name ∈ n.childNames path
    · exact ⟨[], by simp [hnames, hmem], by simp, by simp⟩
    · rw [if_neg hmem] at hnames
      refine ⟨[name], hnames, Nat.le_refl _, ?_⟩
      simpa [hmem] using nextName?_eq_some_iff.1 hnext

/-! ## Two updates -/

theorem setColor_cons (name : String) (path : List String) (c own : Option Color)
    (children : Entries String Node) : setColor (name :: path) c ⟨own, children⟩ =
      ⟨own, children.alter name fun old => (old.getD blank).setColor path c⟩ := rfl

/-- **Updates at two paths go together in any order**, but for the places of new children.  The
induction is on the way that the two paths have in common. -/
theorem setColor_comm (h : p ≠ q) (c d : Option Color) (n : Node) :
    ((n.setColor p c).setColor q d).Same ((n.setColor q d).setColor p c) := by
  induction p generalizing q n with
  | nil =>
    obtain ⟨own, children⟩ := n
    cases q with
    | nil => exact absurd rfl h
    | cons name q => exact .refl _
  | cons name p ih =>
    obtain ⟨own, children⟩ := n
    cases q with
    | nil => exact .refl _
    | cons other q =>
      simp only [setColor_cons]
      by_cases hname : other = name
      · subst hname
        rw [Entries.alter_alter_self, Entries.alter_alter_self]
        refine .mk (.alter Same.refl (fun old => ?_) other children)
        have hpaths : p ≠ q := fun heq => h (by rw [heq])
        exact ih hpaths (old.getD blank)
      · have hsame : ∀ entries : Entries String Node, entries.Matches Same entries :=
          fun _ => .refl fun child _ => Same.refl child.2
        exact .mk ((hsame _).perm (Entries.alter_alter_perm hname _ _ children))

/-! ## All of an update -/

/-- The second tree is the first one with `c` as the own color of the node at `target`. -/
structure Recolors (before : Node) (target : List String) (c : Color) (after : Node) : Prop where
  /-- The path leads to a node of this color. -/
  reached : ∃ m, after.get? target = some m ∧ m.color = some c
  /-- At any other path the own color is the one before, or there is none as before. -/
  others : ∀ path, path ≠ target → after.colorAt path = before.colorAt path
  /-- The nodes are those before and the ones on the way. -/
  nodes : ∀ path, (after.get? path).isSome ↔ (before.get? path).isSome ∨ path <+: target
  /-- Each node has its children in the order before, and behind them at most one that is new: the
  next one on the way. -/
  order : ∀ path, ∃ new, after.childNames path = before.childNames path ++ new ∧ new.length ≤ 1 ∧
    ∀ name ∈ new, path ++ [name] <+: target ∧ name ∉ before.childNames path

theorem recolors_setColor (n : Node) (target : List String) (c : Color) :
    n.Recolors target c (n.setColor target (some c)) where
  reached := by
    have hcolor := colorAt_setColor target target (some c) n
    rw [if_pos rfl] at hcolor
    exact Option.bind_eq_some_iff.1 hcolor
  others path hpath := by rw [colorAt_setColor, if_neg hpath]
  nodes path := by rw [get?_setColor_isSome, or_comm]
  order path := exists_new_childNames n target path (some c)

/-- **To color a node is an update of the tree**: it colors this node and no other, makes the nodes on
the way, moves none, and goes together with any other update. -/
theorem setColor_exact :
    (∀ (n : Node) (target : List String) (c : Color),
      n.Recolors target c (n.setColor target (some c))) ∧
    ∀ (n : Node) (p q : List String) (c d : Color), p ≠ q →
      ((n.setColor p (some c)).setColor q (some d)).Same
        ((n.setColor q (some d)).setColor p (some c)) :=
  ⟨recolors_setColor, fun n _ _ c d h => setColor_comm h (some c) (some d) n⟩

/-- A tree of a color and a group. -/
def sproutingTree : Node :=
  ⟨none, [("base", .leaf ⟨1, 2, 3⟩), ("ink", ⟨none, [("low", .leaf ⟨4, 5, 6⟩)]⟩)]⟩

/-- Two updates that make children of one node, which then stand in another order. -/
theorem setColor_exact_sproutingTree :
    sproutingTree.Recolors ["ink", "high", "dim"] ⟨7, 8, 9⟩
        (sproutingTree.setColor ["ink", "high", "dim"] (some ⟨7, 8, 9⟩)) ∧
      ["ink", "high", "dim"] ≠ ["ink", "mid"] ∧
      ((sproutingTree.setColor ["ink", "high", "dim"] (some ⟨7, 8, 9⟩)).setColor ["ink", "mid"]
          (some ⟨1, 1, 1⟩)).Same
        ((sproutingTree.setColor ["ink", "mid"] (some ⟨1, 1, 1⟩)).setColor ["ink", "high", "dim"]
          (some ⟨7, 8, 9⟩)) := by
  have hpaths : ["ink", "high", "dim"] ≠ ["ink", "mid"] := by decide
  exact ⟨setColor_exact.1 _ _ _, hpaths, setColor_exact.2 _ _ _ _ _ hpaths⟩

end ColorTheme.Node
