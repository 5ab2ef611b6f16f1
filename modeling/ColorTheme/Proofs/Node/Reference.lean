import ColorTheme.Proofs.Node.Update
import ColorTheme.Value

/-!
# What a path in an expression stands for

* `Node.color_value` : a node stands for its own color, whether it is taken as a text or as a
  part of the tree.
* `Node.color_valueFrom` : a path into a tree stands for the own color of the node it leads to;
  or it leads nowhere, and all of it but a last `color` leads to a node of that color.
-/

set_option autoImplicit false

namespace ColorTheme

/-- No node of the tree is called `color`, so the name is free for a node's own color. -/
def Node.ReservesColor (n : Node) : Prop := ∀ path, n.get? (path ++ [colorKey]) = none

theorem Node.color_value (n : Node) (c : Color) : n.value.color = .ok c ↔ n.color = some c := by
  obtain ⟨color, children⟩ := n
  cases color with
  | none => simp [Node.value, Node.color, Value.color]
  | some own =>
    cases children with
    | nil => simp [Node.value, Node.color, Node.children]
    | cons child children => simp [Node.value, Node.color, Node.children, Value.color]

/-- How a path that ends in a given name begins. -/
theorem exists_cons_eq_concat {α : Type} {P : List α → Prop} (x k : α) (xs : List α) :
    (∃ q, x :: xs = q ++ [k] ∧ P q) ↔
      (x = k ∧ xs = [] ∧ P []) ∨ ∃ q, xs = q ++ [k] ∧ P (x :: q) := by
  constructor
  · rintro ⟨q, hq, hP⟩
    cases q with
    | nil =>
      obtain ⟨rfl, rfl⟩ := List.cons.inj hq
      exact .inl ⟨rfl, rfl, hP⟩
    | cons y q =>
      obtain ⟨rfl, rfl⟩ := List.cons.inj hq
      exact .inr ⟨q, rfl, hP⟩
  · rintro (⟨rfl, rfl, hP⟩ | ⟨q, rfl, hP⟩)
    · exact ⟨[], rfl, hP⟩
    · exact ⟨x :: q, rfl, hP⟩

/-- **A path stands for the own color of the node it leads to**, or, if it leads nowhere and ends
in `color`, for the own color of the node before that. -/
theorem Node.color_valueFrom (n : Node) (walked path : List String) (c : Color) :
    (n.valueFrom walked path).bind Value.color = .ok c ↔
      n.colorAt path = some c ∨
        ∃ q, path = q ++ [colorKey] ∧ n.get? path = none ∧ n.colorAt q = some c := by
  induction path generalizing n walked with
  | nil =>
    rw [Node.valueFrom]
    simp [Except.bind, Node.color_value]
  | cons name path ih =>
    rw [exists_cons_eq_concat]
    cases hchild : n.child? name with
    | some child =>
      rw [Node.valueFrom, hchild]
      simp only [ih, Node.colorAt_cons_of_child? hchild, Node.get?_cons, hchild, Option.bind_some]
      constructor
      · rintro (h | h)
        · exact .inl h
        · exact .inr (.inr h)
      · rintro (h | ⟨-, rfl, h, -⟩ | h)
        · exact .inl h
        · cases h
        · exact .inr h
    | none =>
      rw [Node.valueFrom, hchild]
      simp only [Node.colorAt_cons_of_child?_none hchild, Node.get?_cons, hchild, Option.bind_none,
        Node.colorAt_nil]
      cases hcolor : n.color with
      | none => simp [Except.bind]
      | some own =>
        by_cases hlast : name = colorKey ∧ path = []
        · simp [hlast, Except.bind]
        · have hnone : ¬ (name = colorKey ∧ path = [] ∧ True ∧ some own = some c) :=
            fun h => hlast ⟨h.1, h.2.1⟩
          simp only [if_neg hlast]
          split <;> simpa [Except.bind] using hnone

/-- Where the name `color` is free, it always stands for the node before it. -/
theorem Node.ReservesColor.color_valueFrom {n : Node} (h : n.ReservesColor)
    (walked path : List String) (c : Color) :
    (n.valueFrom walked path).bind Value.color = .ok c ↔
      n.colorAt path = some c ∨ ∃ q, path = q ++ [colorKey] ∧ n.colorAt q = some c := by
  rw [Node.color_valueFrom]
  constructor
  · rintro (hc | ⟨q, rfl, -, hc⟩)
    · exact .inl hc
    · exact .inr ⟨q, rfl, hc⟩
  · rintro (hc | ⟨q, rfl, hc⟩)
    · exact .inl hc
    · exact .inr ⟨q, rfl, h q, hc⟩

/-- What a path resolves to is what it resolves to in the tree of its block. -/
theorem Scopes.resolve_path_iff (scopes : Scopes) (root : Ident) (rest : List Ident)
    (span : Span) (c : Color) :
    scopes.resolve (.path root rest span) = .ok c ↔
      ∃ tree, scopes.get? root.name = some tree ∧
        (tree.valueFrom [root.name] (rest.map Ident.name)).bind Value.color = .ok c := by
  rw [Scopes.resolve, evaluate, Scopes.follow]
  cases Entries.get? root.name scopes with
  | none => simp [Except.bind]
  | some tree => simp

end ColorTheme
