import ColorTheme.Node
import Mathlib.Data.List.Induction

/-!
# Coloring a node of a tree

`Node.setColor` is an update: it colors one node and leaves the own color of every other node as
it is; besides, only the nodes on the way are made.

* `colorAt_setColor` : the own color at each path after an update.
* `get?_setColor_isSome` : the nodes after an update are the old ones and those on the way.
* `colorAt_painted` : what a list of updates at different paths leaves in a tree.
* `mem_colorsFrom_painted` : a listing of the tree shows nothing else.
-/

set_option autoImplicit false

namespace ColorTheme.Node

/-- The own color of the node that `path` leads to. -/
def colorAt (n : Node) (path : List String) : Option Color := (n.get? path).bind Node.color

@[simp] theorem get?_nil (n : Node) : n.get? [] = some n := rfl

theorem get?_cons (n : Node) (name : String) (path : List String) :
    n.get? (name :: path) = (n.child? name).bind (get? path) := rfl

@[simp] theorem colorAt_nil (n : Node) : n.colorAt [] = n.color := rfl

theorem colorAt_cons (n : Node) (name : String) (path : List String) :
    n.colorAt (name :: path) = (n.child? name).bind (colorAt · path) := by
  rw [colorAt, get?_cons]
  cases n.child? name <;> rfl

theorem colorAt_cons_of_child? {n child : Node} {name : String} (h : n.child? name = some child)
    (path : List String) : n.colorAt (name :: path) = child.colorAt path := by
  rw [colorAt_cons, h]
  rfl

theorem colorAt_cons_of_child?_none {n : Node} {name : String} (h : n.child? name = none)
    (path : List String) : n.colorAt (name :: path) = none := by
  rw [colorAt_cons, h]
  rfl

@[simp] theorem get?_blank_cons (name : String) (path : List String) :
    blank.get? (name :: path) = none := rfl

@[simp] theorem colorAt_blank (path : List String) : blank.colorAt path = none := by
  cases path <;> rfl

@[simp] theorem color_withColor (c : Option Color) (n : Node) : (withColor c n).color = c := by
  cases n; rfl

@[simp] theorem child?_withColor (c : Option Color) (n : Node) (name : String) :
    (withColor c n).child? name = n.child? name := by
  cases n; rfl

@[simp] theorem setColor_nil (c : Option Color) (n : Node) : n.setColor [] c = withColor c n := rfl

@[simp] theorem color_setColor_cons (name : String) (path : List String) (c : Option Color)
    (n : Node) : (n.setColor (name :: path) c).color = n.color := by
  cases n; rfl

/-- An update below a child makes the child if it is missing. -/
@[simp] theorem child?_setColor_self (name : String) (path : List String) (c : Option Color)
    (n : Node) : (n.setColor (name :: path) c).child? name =
      some (((n.child? name).getD blank).setColor path c) := by
  obtain ⟨color, children⟩ := n
  exact Entries.get?_alter_self name _ children

theorem child?_setColor_of_ne {name other : String} (h : other ≠ name) (path : List String)
    (c : Option Color) (n : Node) :
    (n.setColor (name :: path) c).child? other = n.child? other := by
  obtain ⟨color, children⟩ := n
  exact Entries.get?_alter_of_ne h _ children

/-- **An update colors one node and no other.** -/
theorem colorAt_setColor (p q : List String) (c : Option Color) (n : Node) :
    (n.setColor p c).colorAt q = if q = p then c else n.colorAt q := by
  induction p generalizing q n with
  | nil =>
    cases q with
    | nil => simp
    | cons name q => rw [setColor_nil, colorAt_cons, child?_withColor, ← colorAt_cons]; simp
  | cons name p ih =>
    cases q with
    | nil => simp
    | cons other q =>
      by_cases h : other = name
      · subst h
        rw [colorAt_cons_of_child? (child?_setColor_self other p c n), ih]
        simp only [List.cons.injEq, true_and]
        cases hchild : n.child? other with
        | none => rw [colorAt_cons_of_child?_none hchild, Option.getD_none, colorAt_blank]
        | some child => rw [colorAt_cons_of_child? hchild, Option.getD_some]
      · rw [colorAt_cons, child?_setColor_of_ne h, ← colorAt_cons]
        simp [h]

/-- **An update makes the nodes on its way and no other.** -/
theorem get?_setColor_isSome (p q : List String) (c : Option Color) (n : Node) :
    ((n.setColor p c).get? q).isSome ↔ q <+: p ∨ (n.get? q).isSome := by
  induction p generalizing q n with
  | nil =>
    cases q with
    | nil => simp
    | cons name q => rw [setColor_nil, get?_cons, child?_withColor, ← get?_cons]; simp
  | cons name p ih =>
    cases q with
    | nil => simp
    | cons other q =>
      by_cases h : other = name
      · subst h
        rw [get?_cons, child?_setColor_self, Option.bind_some, ih, List.cons_prefix_cons,
          get?_cons]
        cases hchild : n.child? other with
        | none => cases q <;> simp
        | some child => simp
      · rw [get?_cons, child?_setColor_of_ne h, ← get?_cons]
        simp [h]

/-! ## Many updates -/

/-- The tree after updates in their order. -/
def painted (n : Node) (marks : List (List String × Color)) : Node :=
  marks.foldl (fun n mark => n.setColor mark.1 (some mark.2)) n

theorem painted_append (n : Node) (a b : List (List String × Color)) :
    n.painted (a ++ b) = (n.painted a).painted b := List.foldl_append

/-- Updates at different paths all leave their color, and nothing else is colored. -/
theorem colorAt_painted {marks : List (List String × Color)}
    (h : (marks.map Prod.fst).Nodup) (q : List String) (c : Color) :
    (blank.painted marks).colorAt q = some c ↔ (q, c) ∈ marks := by
  induction marks using List.reverseRecOn with
  | nil => simp [painted]
  | append_singleton marks mark ih =>
    rw [List.map_append, List.map_singleton, List.nodup_append] at h
    have hfresh : mark.1 ∉ marks.map Prod.fst := fun hm => h.2.2 _ hm _ (by simp) rfl
    rw [painted_append]
    show ((blank.painted marks).setColor mark.1 (some mark.2)).colorAt q = some c ↔ _
    rw [colorAt_setColor, List.mem_append, List.mem_singleton]
    by_cases hq : q = mark.1
    · subst hq
      have : (mark.1, c) ∉ marks := fun hm => hfresh (List.mem_map.2 ⟨_, hm, rfl⟩)
      simp [this, Prod.ext_iff, eq_comm]
    · simp [hq, ih h.1, Prod.ext_iff]

/-- The nodes of a tree made by updates are its root and those on the way of an update. -/
theorem get?_painted_isSome (marks : List (List String × Color)) (q : List String) :
    ((blank.painted marks).get? q).isSome ↔ q = [] ∨ ∃ mark ∈ marks, q <+: mark.1 := by
  induction marks using List.reverseRecOn with
  | nil => cases q <;> simp [painted]
  | append_singleton marks mark ih =>
    rw [painted_append]
    show (((blank.painted marks).setColor mark.1 (some mark.2)).get? q).isSome ↔ _
    rw [get?_setColor_isSome, ih]
    constructor
    · rintro (h | rfl | ⟨m, hm, h⟩)
      · exact .inr ⟨mark, by simp, h⟩
      · exact .inl rfl
      · exact .inr ⟨m, by simp [hm], h⟩
    · rintro (rfl | ⟨m, hm, h⟩)
      · exact .inr (.inl rfl)
      · rcases List.mem_append.1 hm with hm | hm
        · exact .inr (.inr ⟨m, hm, h⟩)
        · rw [List.mem_singleton.1 hm] at h
          exact .inl h

/-! ## Listings -/

theorem mem_colorsOfChildren_cons {walked : List String} {name : String} {child : Node}
    {rest : List (String × Node)} {entry : List String × Color} :
    entry ∈ colorsOfChildren walked ((name, child) :: rest) ↔
      entry ∈ child.colorsFrom (walked ++ [name]) ∨ entry ∈ colorsOfChildren walked rest := by
  rw [colorsOfChildren, List.mem_append]

/-- Changing one child brings into the listing what the change brings into that of the child. -/
theorem mem_colorsOfChildren_alter {walked : List String} {name : String} {f : Option Node → Node}
    {entry : List String × Color} {New : Prop}
    (hf : ∀ old, entry ∈ (f old).colorsFrom (walked ++ [name]) →
      New ∨ entry ∈ (old.getD blank).colorsFrom (walked ++ [name]))
    {children : List (String × Node)}
    (h : entry ∈ colorsOfChildren walked (Entries.alter name f children)) :
    New ∨ entry ∈ colorsOfChildren walked children := by
  induction children with
  | nil =>
    rcases mem_colorsOfChildren_cons.1 h with hmem | hmem
    · rcases hf none hmem with hnew | hmem
      · exact .inl hnew
      · cases hmem
    · cases hmem
  | cons first children ih =>
    obtain ⟨key, child⟩ := first
    rw [mem_colorsOfChildren_cons]
    rw [Entries.alter] at h
    split at h
    · rename_i hkey
      rcases mem_colorsOfChildren_cons.1 h with hmem | hmem
      · rw [hkey] at hmem ⊢
        rcases hf (some child) hmem with hnew | hmem
        · exact .inl hnew
        · exact .inr (.inl hmem)
      · exact .inr (.inr hmem)
    · rcases mem_colorsOfChildren_cons.1 h with hmem | hmem
      · exact .inr (.inl hmem)
      · rcases ih hmem with hnew | hmem
        · exact .inl hnew
        · exact .inr (.inr hmem)

/-- An update adds at most one entry to the listing of a tree, that of its own node. -/
theorem mem_colorsFrom_setColor {p walked path : List String} {c color : Color} {n : Node}
    (h : (path, color) ∈ (n.setColor p (some c)).colorsFrom walked) :
    (path = walked ++ p ∧ color = c) ∨ (path, color) ∈ n.colorsFrom walked := by
  induction p generalizing walked n with
  | nil =>
    obtain ⟨own, children⟩ := n
    rw [setColor_nil, withColor, colorsFrom, List.mem_append] at h
    rcases h with h | h
    · obtain ⟨hpath, hcolor⟩ := Prod.mk.inj (List.mem_singleton.1 h)
      exact .inl ⟨by rw [hpath, List.append_nil], hcolor⟩
    · rw [colorsFrom, List.mem_append]
      exact .inr (.inr h)
  | cons name p ih =>
    obtain ⟨own, children⟩ := n
    have hlisting : (path, color) ∈ own.toList.map (fun color => (walked, color)) ++
        colorsOfChildren walked
          (Entries.alter name (fun old => (old.getD blank).setColor p (some c)) children) := h
    rw [colorsFrom, List.mem_append]
    rcases List.mem_append.1 hlisting with hown | hchildren
    · exact .inr (.inl hown)
    · have hstep : ∀ old : Option Node, (path, color) ∈
          ((old.getD blank).setColor p (some c)).colorsFrom (walked ++ [name]) →
          (path = walked ++ name :: p ∧ color = c) ∨
            (path, color) ∈ (old.getD blank).colorsFrom (walked ++ [name]) := by
        intro old hold
        have := ih hold
        rwa [List.append_assoc] at this
      rcases mem_colorsOfChildren_alter hstep hchildren with hnew | hmem
      · exact .inl hnew
      · exact .inr (.inr hmem)

/-- The listing of a tree made by updates shows these and nothing else. -/
theorem mem_colorsFrom_painted {marks : List (List String × Color)} {path : List String}
    {color : Color} (h : (path, color) ∈ (blank.painted marks).colorsFrom []) :
    (path, color) ∈ marks := by
  induction marks using List.reverseRecOn with
  | nil => cases h
  | append_singleton marks mark ih =>
    rw [painted_append] at h
    rcases mem_colorsFrom_setColor h with ⟨rfl, rfl⟩ | h
    · simp
    · exact List.mem_append_left _ (ih h)

end ColorTheme.Node
