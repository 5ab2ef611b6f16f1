import ColorTheme.Color.Oklch
import ColorTheme.Node

/-!
# The value of an expression

Expressions are worked out against scopes: the color trees of the blocks that can be seen.

* `evaluate` is the value of an expression, `Value.color` the color that a value stands for.
* A path that ends in `color` stands for the own color of the node before it, unless that node
  has a child of that name.
-/

set_option autoImplicit false

namespace ColorTheme

/-- The trees that an expression can see, by the names of their blocks. -/
abbrev Scopes := Entries String Node

/-- A value: a text, a number, a truth value, or the part of a tree that a path leads to. -/
inductive Value
  | text (written : String)
  | number (value : Float)
  | truth (value : Bool)
  | tree (node : Node)
deriving Repr, Inhabited

/-- The types of values. -/
inductive ValueType
  | text
  | number
  | truth
  | tree
deriving Repr, DecidableEq

/-- The type of a value. -/
def Value.type : Value → ValueType
  | .text _ => .text
  | .number _ => .number
  | .truth _ => .truth
  | .tree _ => .tree

/-- What messages call a type. -/
def ValueType.name : ValueType → String
  | .text => "string"
  | .number => "number"
  | .truth => "bool"
  | .tree => "object"

/-- The functions of the language. -/
inductive Builtin
  | brighten
  | darken
deriving Repr, DecidableEq

/-- What a function is called. -/
def Builtin.name : Builtin → String
  | .brighten => "brighten"
  | .darken => "darken"

/-- All functions, in the order in which they are offered. -/
def Builtin.all : List Builtin := [.brighten, .darken]

/-- The function of the given name. -/
def Builtin.ofName? (name : String) : Option Builtin := Builtin.all.find? (·.name == name)

/-- Why an expression has no value, or a value no color. -/
inductive EvalError
  | unknownVariable (name : String)
  | unknownPath (path : List String)
  | notAGroup (parent : List String) (segment : String)
  | noColorAttribute
  | unknownFunction (name : String)
  | arity (function : Builtin) (found : Nat)
  | argumentNotAColor (function : Builtin) (found : ValueType)
  | argumentNotANumber (function : Builtin) (found : ValueType)
  | notAColor (found : ValueType)
  | invalidHex (text : String)
deriving Repr, DecidableEq

namespace EvalError

/-- The code of a failure in reports. -/
def code : EvalError → String
  | unknownVariable _ => "E2001"
  | unknownPath _ => "E2001"
  | notAGroup _ _ => "E2001"
  | noColorAttribute => "E2005"
  | unknownFunction _ => "E2006"
  | arity _ _ => "E2007"
  | argumentNotAColor _ _ => "E2007"
  | argumentNotANumber _ _ => "E2007"
  | notAColor _ => "E2004"
  | invalidHex _ => "E2003"

/-- The wording of a failure in reports. -/
def message : EvalError → String
  | unknownVariable name => "unknown variable `" ++ name ++ "`"
  | unknownPath path => "`" ++ dotted path ++ "` is not defined"
  | notAGroup parent segment =>
    "`" ++ dotted parent ++ "` is a color, not a group; it has no attribute `" ++ segment ++ "`"
  | noColorAttribute => "object has no color attribute"
  | unknownFunction name => "there is no function named `" ++ name ++ "`"
  | arity function found =>
    "`" ++ function.name ++ "` expects 2 arguments, got " ++ toString found
  | argumentNotAColor function found =>
    "`" ++ function.name ++ "` argument 1: expected color, found " ++ found.name
  | argumentNotANumber function found =>
    "`" ++ function.name ++ "` argument 2: expected number, found " ++ found.name
  | notAColor found => "expected a color, found " ++ found.name
  | invalidHex text => invalidHexMessage text

end EvalError

/-- The failure of an expression whose value is no color. -/
def EvalError.ofColorError : ColorError → EvalError
  | .invalidHex text => .invalidHex text

/-- The color that a value stands for: a text must be a hex color, a part of a tree must have a
color of its own. -/
def Value.color : Value → Except EvalError Color
  | .text written => (Color.parse written).mapError .ofColorError
  | .tree node =>
    match node.color with
    | some c => .ok c
    | none => .error .noColorAttribute
  | value => .error (.notAColor value.type)

theorem Value.color_text_eq_ok_iff {written : String} {c : Color} :
    (Value.text written).color = .ok c ↔ Color.ofHex? written = some c := by
  rw [← Color.parse_eq_ok_iff, Value.color]
  cases Color.parse written with
  | ok found => constructor <;> (intro read; cases read; rfl)
  | error reason => exact ⟨nofun, nofun⟩

@[simp] theorem Value.color_hex (c : Color) : (Value.text c.hex).color = .ok c :=
  Value.color_text_eq_ok_iff.2 c.ofHex?_hex

/-- The value that a node of a tree has: a leaf is its color, anything else the part of the tree. -/
def Node.value (n : Node) : Value :=
  match n.color, n.children with
  | some c, [] => .text c.hex
  | _, _ => .tree n

/-- The value that `path` leads to from a node that is itself reached by `walked`. -/
def Node.valueFrom (walked : List String) : List String → Node → Except EvalError Value
  | [], n => .ok n.value
  | name :: path, n =>
    match n.child? name with
    | some child => child.valueFrom (walked ++ [name]) path
    | none =>
      match n.color with
      | some c =>
        if name = colorKey ∧ path = [] then .ok (.text c.hex)
        else if n.children.isEmpty then .error (.notAGroup walked name)
        else .error (.unknownPath (walked ++ name :: path))
      | none => .error (.unknownPath (walked ++ name :: path))

/-- The value of the path `root.rest`. -/
def Scopes.follow (scopes : Scopes) (root : String) (rest : List String) :
    Except EvalError Value :=
  match scopes.get? root with
  | some tree => tree.valueFrom [root] rest
  | none => .error (.unknownVariable root)

/-- The value of a function for values of its arguments: a color, and a percentage by which its
lightness is shifted. -/
def Builtin.apply (function : Builtin) (args : List Value) : Except EvalError Value :=
  match args with
  | [subject, percent] =>
    match subject.color with
    | .error (.notAColor found) => .error (.argumentNotAColor function found)
    | .error e => .error e
    | .ok color =>
      match percent with
      | .number x =>
        match function with
        | .brighten => .ok (.text (color.brighten x).hex)
        | .darken => .ok (.text (color.darken x).hex)
      | other => .error (.argumentNotANumber function other.type)
  | _ => .error (.arity function args.length)

mutual

/-- The value of an expression.  The function of a call must exist before its arguments are
looked at. -/
def evaluate (scopes : Scopes) : Expr → Except EvalError Value
  | .quoted text _ => .ok (.text text)
  | .hex text _ => .ok (.text text)
  | .number value _ => .ok (.number value)
  | .truth value _ => .ok (.truth value)
  | .path root rest _ => scopes.follow root.name (rest.map Ident.name)
  | .call name args _ =>
    match Builtin.ofName? name.name with
    | none => .error (.unknownFunction name.name)
    | some function =>
      match evaluateAll scopes args with
      | .error e => .error e
      | .ok values => function.apply values

/-- The values of the arguments of a call, from left to right. -/
def evaluateAll (scopes : Scopes) : List Expr → Except EvalError (List Value)
  | [] => .ok []
  | arg :: args =>
    match evaluate scopes arg with
    | .error e => .error e
    | .ok value =>
      match evaluateAll scopes args with
      | .error e => .error e
      | .ok values => .ok (value :: values)

end

/-- The color of an expression. -/
def Scopes.resolve (scopes : Scopes) (e : Expr) : Except EvalError Color :=
  (evaluate scopes e).bind Value.color

end ColorTheme
