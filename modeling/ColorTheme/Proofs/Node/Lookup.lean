import ColorTheme.Proofs.Node.Reference

/-!
# References and lookups

A reference in an expression and a lookup in a tree both follow a path, each with rules of its own
at the end of the way.

* `Node.Deepest` : the node that is reached last along a path.
* `Node.follows` : how the way along a path ends, one case for each outcome of a reference.
* `Node.color?_eq_ok_iff` : a lookup finds the own color of the node that the path leads to.
* `Scopes.agrees` : what a reference resolves to, and why it does not, by what lookups find.
-/

set_option autoImplicit false

namespace ColorTheme

namespace Node

variable {n m : Node} {name segment : String} {front path rest walked : List String}

/-! ## Nodes along a path -/

theorem get?_append (n : Node) (front rest : List String) :
    n.get? (front ++ rest) = (n.get? front).bind (get? rest) := by
  induction front generalizing n with
  | nil => rfl
  | cons name front ih =>
    rw [List.cons_append, get?_cons, get?_cons]
    cases n.child? name with
    | none => rfl
    | some child => exact ih child

theorem get?_concat (n : Node) (front : List String) (name : String) :
    n.get? (front ++ [name]) = (n.get? front).bind (child? · name) := by
  rw [get?_append]
  cases n.get? front with
  | none => rfl
  | some m =>
    rw [Option.bind_some, Option.bind_some, get?_cons]
    cases m.child? name <;> rfl

/-- The beginning of a path on which nodes are found leads to one at every place before. -/
theorem isSome_get?_of_prefix (h : front <+: path) (hpath : (n.get? path).isSome) :
    (n.get? front).isSome := by
  obtain ⟨rest, rfl⟩ := h
  rw [get?_append] at hpath
  cases hfront : n.get? front with
  | none => rw [hfront] at hpath; cases hpath
  | some m => rfl

/-- The node `m`, to which `front` leads, is the last one that is reached along the path. -/
structure Deepest (n : Node) (path front : List String) (m : Node) : Prop where
  begins : front <+: path
  leads : n.get? front = some m
  deepest : ∀ further, further <+: path → (n.get? further).isSome → further <+: front

/-- Where a name is missing the way ends. -/
theorem deepest_of_stops (leads : n.get? front = some m) (stops : m.child? segment = none) :
    n.Deepest (front ++ segment :: rest) front m where
  begins := List.prefix_append _ _
  leads := leads
  deepest further hfurther hsome := by
    have hbegins : front ++ [segment] <+: front ++ segment :: rest := by simp
    rcases List.prefix_or_prefix_of_prefix hfurther hbegins with h | h
    · rcases List.prefix_concat_iff.1 h with rfl | h
      · rw [get?_concat, leads, Option.bind_some, stops] at hsome
        cases hsome
      · exact h
    · have hmissing := isSome_get?_of_prefix h hsome
      rw [get?_concat, leads, Option.bind_some, stops] at hmissing
      cases hmissing

/-- Behind the last node that is reached the next name is missing. -/
theorem Deepest.stops (h : n.Deepest (front ++ segment :: rest) front m) :
    m.child? segment = none := by
  cases hchild : m.child? segment with
  | none => rfl
  | some child =>
    have hsome : (n.get? (front ++ [segment])).isSome := by
      rw [get?_concat, h.leads, Option.bind_some, hchild]
      rfl
    have hlong := (h.deepest (front ++ [segment]) (by simp) hsome).length_le
    rw [List.length_append, List.length_singleton] at hlong
    omega

/-- A leaf has a color and no children. -/
theorem shape_eq_leaf_iff : n.shape = .leaf ↔ n.color.isSome = true ∧ n.children = [] := by
  unfold shape
  split <;> simp_all

/-! ## Lookups -/

/-- A lookup finds the own color of the node that the path leads to. -/
theorem colorFrom_eq_ok_iff {c : Color} :
    n.colorFrom walked path = .ok c ↔ n.colorAt path = some c := by
  induction path generalizing n walked with
  | nil =>
    rw [colorFrom, colorAt_nil]
    cases n.color <;> simp
  | cons name path ih =>
    rw [colorFrom]
    cases hchild : n.child? name with
    | some child => rw [colorAt_cons_of_child? hchild]; exact ih
    | none =>
      rw [colorAt_cons_of_child?_none hchild]
      dsimp only
      split <;> simp

theorem color?_eq_ok_iff {c : Color} : n.color? path = .ok c ↔ n.colorAt path = some c :=
  colorFrom_eq_ok_iff

/-! ## References -/

/-- How a reference ends whose path leads from the node `n`, itself reached by `walked`. -/
inductive Follows (n : Node) (walked path : List String) : Except EvalError Color → Prop
  | colored {m : Node} {c : Color} (leads : n.get? path = some m) (color : m.color = some c) :
      Follows n walked path (.ok c)
  | colorless {m : Node} (leads : n.get? path = some m) (color : m.color = none) :
      Follows n walked path (.error .noColorAttribute)
  | own {front : List String} {m : Node} {c : Color} (cut : path = front ++ [colorKey])
      (leads : n.get? front = some m) (stops : m.child? colorKey = none)
      (color : m.color = some c) : Follows n walked path (.ok c)
  | beyondLeaf {front rest : List String} {segment : String} {m : Node}
      (cut : path = front ++ segment :: rest) (leads : n.get? front = some m)
      (stops : m.child? segment = none) (leaf : m.shape = .leaf)
      (foreign : path ≠ front ++ [colorKey]) :
      Follows n walked path (.error (.notAGroup (walked ++ front) segment))
  | missing {front rest : List String} {segment : String} {m : Node}
      (cut : path = front ++ segment :: rest) (leads : n.get? front = some m)
      (stops : m.child? segment = none) (group : m.shape ≠ .leaf) :
      Follows n walked path (.error (.unknownPath (walked ++ path)))

theorem color_value_of_none (h : n.color = none) : n.value.color = .error .noColorAttribute := by
  unfold value
  rw [h]
  simp [Value.color, h]

/-- Where a name is missing, the node before it decides. -/
theorem follows_of_stops (stops : n.child? name = none) :
    Follows n walked (name :: rest) ((n.valueFrom walked (name :: rest)).bind Value.color) := by
  have hcut : name :: rest = [] ++ name :: rest := rfl
  rw [valueFrom, stops]
  cases hcolor : n.color with
  | none =>
    have hgroup : n.shape ≠ .leaf := by simp [shape_eq_leaf_iff, hcolor]
    exact .missing hcut rfl stops hgroup
  | some c =>
    dsimp only
    split
    · rename_i hlast
      obtain ⟨rfl, rfl⟩ := hlast
      rw [Except.bind, Value.color_hex]
      have hcut : [colorKey] = [] ++ [colorKey] := rfl
      exact .own hcut rfl stops hcolor
    · rename_i hforeign
      split
      · rename_i hempty
        have hleaf : n.shape = .leaf := by simpa [shape_eq_leaf_iff, hcolor] using hempty
        have hend : Follows n walked (name :: rest) (.error (.notAGroup (walked ++ []) name)) :=
          .beyondLeaf hcut rfl stops hleaf (by simpa using hforeign)
        rwa [List.append_nil] at hend
      · rename_i hfull
        have hgroup : n.shape ≠ .leaf := by simpa [shape_eq_leaf_iff, hcolor] using hfull
        exact .missing hcut rfl stops hgroup

/-- The way behind a child ends as the way from the child does. -/
theorem Follows.of_child {child : Node} {outcome : Except EvalError Color}
    (hchild : n.child? name = some child) (h : Follows child (walked ++ [name]) path outcome) :
    Follows n walked (name :: path) outcome := by
  have hget : ∀ front, n.get? (name :: front) = child.get? front := by
    intro front
    rw [get?_cons, hchild, Option.bind_some]
  cases h with
  | colored leads color => exact .colored ((hget path).trans leads) color
  | colorless leads color => exact .colorless ((hget path).trans leads) color
  | @own front m c cut leads stops color =>
    have hcut : name :: path = name :: front ++ [colorKey] := by rw [cut]; rfl
    exact .own hcut ((hget front).trans leads) stops color
  | @beyondLeaf front rest segment m cut leads stops leaf foreign =>
    have hcut : name :: path = name :: front ++ segment :: rest := by rw [cut]; rfl
    have hforeign : name :: path ≠ name :: front ++ [colorKey] := by simpa using foreign
    rw [← List.append_cons]
    exact .beyondLeaf hcut ((hget front).trans leads) stops leaf hforeign
  | @missing front rest segment m cut leads stops group =>
    have hcut : name :: path = name :: front ++ segment :: rest := by rw [cut]; rfl
    rw [← List.append_cons]
    exact .missing hcut ((hget front).trans leads) stops group

/-- **How the way along a path ends.** -/
theorem follows (n : Node) (walked path : List String) :
    Follows n walked path ((n.valueFrom walked path).bind Value.color) := by
  induction path generalizing n walked with
  | nil =>
    rw [valueFrom, Except.bind]
    cases hcolor : n.color with
    | none =>
      rw [color_value_of_none hcolor]
      exact .colorless rfl hcolor
    | some c =>
      rw [(color_value n c).2 hcolor]
      exact .colored rfl hcolor
  | cons name path ih =>
    cases hchild : n.child? name with
    | none => exact follows_of_stops hchild
    | some child =>
      rw [valueFrom, hchild]
      exact (ih child (walked ++ [name])).of_child hchild

/-- A way falls into parts wherever it has a node. -/
theorem valueFrom_append (leads : n.get? front = some m) (walked rest : List String) :
    n.valueFrom walked (front ++ rest) = m.valueFrom (walked ++ front) rest := by
  induction front generalizing n walked with
  | nil =>
    obtain rfl := Option.some.inj leads
    rw [List.nil_append, List.append_nil]
  | cons name front ih =>
    rw [get?_cons] at leads
    obtain ⟨child, hchild, leads⟩ := Option.bind_eq_some_iff.1 leads
    have hrest := ih leads (walked ++ [name])
    rw [List.append_assoc, List.singleton_append] at hrest
    rw [List.cons_append, valueFrom, hchild]
    exact hrest

/-- A leaf has nothing below it but its own color. -/
theorem valueFrom_of_leaf (leaf : n.shape = .leaf) (hforeign : segment :: rest ≠ [colorKey])
    (walked : List String) :
    n.valueFrom walked (segment :: rest) = .error (.notAGroup walked segment) := by
  obtain ⟨hcolor, hchildren⟩ := shape_eq_leaf_iff.1 leaf
  obtain ⟨c, hc⟩ := Option.isSome_iff_exists.1 hcolor
  have stops : n.child? segment = none := by
    rw [child?, hchildren]
    rfl
  have hlast : ¬ (segment = colorKey ∧ rest = []) := by simpa using hforeign
  rw [valueFrom, stops, hc]
  simp [hlast, hchildren]

/-- The outcome of the reference `root.path` is told by lookups in the tree of the block `root`. -/
structure Agrees (tree : Node) (root : String) (path : List String)
    (outcome : Except EvalError Color) : Prop where
  /-- It is the color that the path leads to, or, where the path leads to no node and ends in
  `color`, that of the path before. -/
  ok : ∀ c, outcome = .ok c ↔ tree.color? path = .ok c ∨
    ∃ front, path = front ++ [colorKey] ∧ tree.get? path = none ∧ tree.color? front = .ok c
  /-- The path leads to a node without own color. -/
  noColor : outcome = .error .noColorAttribute ↔ ∃ n, tree.get? path = some n ∧ n.color = none
  /-- The last node along the path is a leaf, and more than its own color is asked of it. -/
  notAGroup : ∀ parent segment, outcome = .error (.notAGroup parent segment) ↔
    ∃ front rest leaf, tree.Deepest path front leaf ∧ leaf.shape = .leaf ∧
      path = front ++ segment :: rest ∧ path ≠ front ++ [colorKey] ∧ parent = root :: front
  /-- In all other cases the whole path is unknown. -/
  otherwise : (∃ c, outcome = .ok c) ∨ outcome = .error .noColorAttribute ∨
    (∃ parent segment, outcome = .error (.notAGroup parent segment)) ∨
    outcome = .error (.unknownPath (root :: path))

theorem noColor_iff (n : Node) (walked path : List String) :
    (n.valueFrom walked path).bind Value.color = .error .noColorAttribute ↔
      ∃ m, n.get? path = some m ∧ m.color = none := by
  constructor
  · intro h
    have hend := n.follows walked path
    rw [h] at hend
    cases hend with
    | colorless leads color => exact ⟨_, leads, color⟩
  · rintro ⟨m, leads, hcolor⟩
    have hvalue := valueFrom_append leads walked []
    rw [List.append_nil, valueFrom] at hvalue
    rw [hvalue, Except.bind, color_value_of_none hcolor]

theorem notAGroup_iff (n : Node) (walked path parent : List String) (segment : String) :
    (n.valueFrom walked path).bind Value.color = .error (.notAGroup parent segment) ↔
      ∃ front rest leaf, n.Deepest path front leaf ∧ leaf.shape = .leaf ∧
        path = front ++ segment :: rest ∧ path ≠ front ++ [colorKey] ∧
        parent = walked ++ front := by
  constructor
  · intro h
    have hend := n.follows walked path
    rw [h] at hend
    cases hend with
    | @beyondLeaf front rest _ m cut leads stops leaf foreign =>
      refine ⟨front, rest, m, ?_, leaf, cut, foreign, rfl⟩
      rw [cut]
      exact deepest_of_stops leads stops
  · rintro ⟨front, rest, leaf, hdeepest, hleaf, rfl, hforeign, rfl⟩
    have hrest : segment :: rest ≠ [colorKey] := by
      intro h
      exact hforeign (by rw [h])
    rw [valueFrom_append hdeepest.leads, valueFrom_of_leaf hleaf hrest]
    rfl

end Node

/-- **References and lookups agree.**  A reference into a block that can be seen resolves to what
lookups in the tree of the block find, and where it fails, the last node along its path says how. -/
theorem Scopes.agrees {scopes : Scopes} {root : Ident} {tree : Node}
    (h : scopes.get? root.name = some tree) (rest : List Ident) (span : Span) :
    tree.Agrees root.name (rest.map Ident.name) (scopes.resolve (.path root rest span)) := by
  have hresolve : scopes.resolve (.path root rest span) =
      (tree.valueFrom [root.name] (rest.map Ident.name)).bind Value.color := by
    rw [Scopes.resolve, evaluate, Scopes.follow, h]
  rw [hresolve]
  refine ⟨?ok, tree.noColor_iff _ _, ?notAGroup, ?otherwise⟩
  case ok =>
    intro c
    simp only [Node.color_valueFrom, Node.color?_eq_ok_iff]
  case notAGroup =>
    intro parent segment
    exact tree.notAGroup_iff [root.name] _ parent segment
  case otherwise =>
    have hend := tree.follows [root.name] (rest.map Ident.name)
    generalize (tree.valueFrom [root.name] (rest.map Ident.name)).bind Value.color = outcome
      at hend ⊢
    cases hend with
    | colored leads color | own cut leads stops color => exact .inl ⟨_, rfl⟩
    | colorless leads color => exact .inr (.inl rfl)
    | beyondLeaf cut leads stops leaf foreign => exact .inr (.inr (.inl ⟨_, _, rfl⟩))
    | missing cut leads stops group => exact .inr (.inr (.inr rfl))

/-- A palette of a leaf, a color with a child of the name `color`, and a group. -/
def unusualPalette : Node :=
  ⟨none, [("a", .leaf ⟨1, 2, 3⟩), ("b", ⟨some ⟨4, 5, 6⟩, [("color", .blank)]⟩),
    ("c", ⟨none, [("d", .leaf ⟨7, 8, 9⟩)]⟩)]⟩

theorem Scopes.agrees_unusualPalette :
    Entries.get? "palette" [("palette", unusualPalette)] = some unusualPalette ∧
      unusualPalette.Agrees "palette" ["b", "color"]
        (Scopes.resolve [("palette", unusualPalette)]
          (.path ⟨"palette", ⟨0, 7⟩⟩ [⟨"b", ⟨8, 9⟩⟩, ⟨"color", ⟨10, 15⟩⟩] ⟨0, 15⟩)) := by
  have hroot : Entries.get? (Ident.mk "palette" ⟨0, 7⟩).name [("palette", unusualPalette)] =
      some unusualPalette := rfl
  exact ⟨hroot, Scopes.agrees hroot [⟨"b", ⟨8, 9⟩⟩, ⟨"color", ⟨10, 15⟩⟩] ⟨0, 15⟩⟩

end ColorTheme
