import ColorTheme.Color
import ColorTheme.Entries
import ColorTheme.Expr

/-!
# The color tree

A node has a color of its own, named children, both or neither.  A block of a theme is such a
tree, and a path of names leads to each of its nodes.

* `Node.get?` follows a path, `Node.alterAt` changes the node at a path and makes the nodes that
  are missing on the way.
* `Node.color?` is the color that a path leads to, or why it leads to none.
* `Node.flatten` lists the colored nodes below the root.
-/

set_option autoImplicit false

namespace ColorTheme

/-- A node of a color tree. -/
inductive Node
  | mk (color : Option Color) (children : List (String × Node))
deriving Repr, Inhabited

/-- What a node consists of: a color of its own, children, both or neither. -/
inductive Shape
  | leaf
  | group
  | dual
  | empty
deriving Repr, DecidableEq

/-- The name that stands for a node's own color. -/
def colorKey : String := "color"

/-- Why a path leads to no color. -/
inductive LookupError
  | missing (segment : String)
  | notAGroup (parent : List String) (segment : String)
  | noColor (path : List String)
deriving Repr, DecidableEq

/-- The wording of a failed lookup. -/
def LookupError.message : LookupError → String
  | .missing segment => "`" ++ segment ++ "` does not exist"
  | .notAGroup parent segment =>
    "`" ++ dotted parent ++ "` is a color, not a group; it has no `" ++ segment ++ "`"
  | .noColor path => "`" ++ dotted path ++ "` is a group without its own color"

namespace Node

/-- The node without color and children. -/
def blank : Node := ⟨none, []⟩

/-- The node with a color and no children. -/
def leaf (color : Color) : Node := ⟨some color, []⟩

/-- The node's own color. -/
def color : Node → Option Color
  | mk c _ => c

/-- The children, in the order of their making. -/
def children : Node → Entries String Node
  | mk _ cs => cs

/-- The node with another color of its own. -/
def withColor (color : Option Color) : Node → Node
  | mk _ cs => mk color cs

/-- The shape of a node. -/
def shape (n : Node) : Shape :=
  match n.color, n.children with
  | some _, [] => .leaf
  | none, _ :: _ => .group
  | some _, _ :: _ => .dual
  | none, [] => .empty

/-- The child with the given name. -/
def child? (n : Node) (name : String) : Option Node := n.children.get? name

/-- The node that `path` leads to. -/
def get? : List String → Node → Option Node
  | [], n => some n
  | name :: path, n => (n.child? name).bind (get? path)

/-- The tree with the node at `path` changed by `f`; nodes that are missing on the way are made. -/
def alterAt (f : Node → Node) : List String → Node → Node
  | [], n => f n
  | name :: path, mk c cs =>
    mk c (Entries.alter name (fun old => alterAt f path (old.getD blank)) cs)

/-- The tree with `color` as the own color of the node at `path`. -/
def setColor (path : List String) (color : Option Color) (n : Node) : Node :=
  n.alterAt (withColor color) path

/-- The color that `path` leads to from a node that is itself reached by `walked`. -/
def colorFrom (walked : List String) : List String → Node → Except LookupError Color
  | [], n =>
    match n.color with
    | some c => .ok c
    | none => .error (.noColor walked)
  | name :: path, n =>
    match n.child? name with
    | some child => child.colorFrom (walked ++ [name]) path
    | none =>
      if n.shape = .leaf ∧ walked ≠ [] then .error (.notAGroup walked name)
      else .error (.missing name)

/-- The color that `path` leads to. -/
def color? (n : Node) (path : List String) : Except LookupError Color := n.colorFrom [] path

mutual

/-- The paths and colors of all colored nodes, a node before its children, where the node itself
is reached by `walked`. -/
def colorsFrom (walked : List String) : Node → List (List String × Color)
  | mk c cs => c.toList.map (fun color => (walked, color)) ++ colorsOfChildren walked cs

/-- The paths and colors of all colored nodes in and below the given children. -/
def colorsOfChildren (walked : List String) : List (String × Node) → List (List String × Color)
  | [] => []
  | (name, child) :: rest =>
    child.colorsFrom (walked ++ [name]) ++ colorsOfChildren walked rest

end

/-- A path as a listing writes it: joined by dots, except that names of no length at its head
vanish. -/
def listed (path : List String) : String :=
  path.foldl (fun shown name => if shown.isEmpty then name else shown ++ "." ++ name) ""

/-- The listing of all colored nodes below the root, each with its path, a node before its
children. -/
def flatten (n : Node) : List (String × Color) :=
  (n.colorsFrom []).filterMap fun (path, color) =>
    if (listed path).isEmpty then none else some (listed path, color)

end Node

end ColorTheme
