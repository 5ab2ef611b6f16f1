import ColorTheme.Text.Span

/-!
# Expressions

What stands to the right of `=`: a literal, a dotted path into a block, or a call of a function.
Every node knows where it stands in the source.
-/

set_option autoImplicit false

namespace ColorTheme

/-- A name and where it stands. -/
structure Ident where
  name : String
  span : Span
deriving Repr, DecidableEq, Inhabited

/-- The value of an attribute.  A `quoted` text is held without quotes and escapes, a `hex`
literal with its `#`; a path has at least one segment, its root. -/
inductive Expr
  | quoted (text : String) (span : Span)
  | hex (text : String) (span : Span)
  | number (value : Float) (span : Span)
  | truth (value : Bool) (span : Span)
  | path (root : Ident) (rest : List Ident) (span : Span)
  | call (name : Ident) (args : List Expr) (span : Span)
deriving Repr, Inhabited

namespace Expr

/-- Where the expression stands. -/
def span : Expr → Span
  | quoted _ s => s
  | hex _ s => s
  | number _ s => s
  | truth _ s => s
  | path _ _ s => s
  | call _ _ s => s

/-- The expression is a path, and so no literal and no call. -/
def isReference : Expr → Bool
  | path _ _ _ => true
  | _ => false

/-- The names along a path; nothing for any other expression. -/
def path? : Expr → Option (List String)
  | path root rest _ => some ((root :: rest).map Ident.name)
  | _ => none

mutual

/-- The paths inside an expression, from left to right. -/
def references : Expr → List (List String)
  | path root rest _ => [(root :: rest).map Ident.name]
  | call _ args _ => referencesOfAll args
  | quoted _ _ => []
  | hex _ _ => []
  | number _ _ => []
  | truth _ _ => []

/-- The paths inside the arguments of a call, from left to right. -/
def referencesOfAll : List Expr → List (List String)
  | [] => []
  | arg :: args => references arg ++ referencesOfAll args

end

end Expr

/-- Segments joined by dots, as a path is written. -/
def dotted (path : List String) : String := ".".intercalate path

end ColorTheme
