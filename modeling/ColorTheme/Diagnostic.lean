import ColorTheme.BlockTable
import ColorTheme.Flaw
import ColorTheme.Value

/-!
# Diagnostics

Everything that can be wrong with a document, each with its code, its wording and its place.
A diagnostic never stops the work on the items around it.
-/

set_option autoImplicit false

namespace ColorTheme

/-- How bad a problem is. -/
inductive Severity
  | error
  | warning
deriving Repr, DecidableEq

/-- The groups of problems. -/
inductive ProblemGroup
  | wording
  | missingBlock
  | resolution
  | circularReference
  | completeness
deriving Repr, DecidableEq

/-- Why a reference to something in the same block cannot be followed. -/
inductive CycleReason
  | encloses
  | later
deriving Repr, DecidableEq

/-- How a message ends for each reason. -/
def CycleReason.describe : CycleReason → String
  | .encloses => "which encloses it"
  | .later => "which is not defined before it"

/-- What can be wrong with a document. -/
inductive Problem
  | flaw (kind : FlawKind)
  | topLevelAttribute (name : String)
  | unknownBlock (name : String) (known : List String)
  | duplicateBlock (name : String)
  | missingPalette
  | blockInside (parent : String)
  | reservedName
  | duplicateDefinition (path : List String)
  | nameNotAllowed (block : String) (name : String) (allowed : List String)
  | flagNotTruth (name : String) (found : ValueType)
  | notLiteral (name : String)
  | circular (name : String) (target : List String) (reason : CycleReason)
  | unresolved (failure : EvalError)
  | incomplete (block : String) (missing : List String)
deriving Repr, DecidableEq

/-- That names are missing from a block, in words. -/
def missingColors (block : String) (missing : List String) (plural : String) : String :=
  "`" ++ block ++ "` is missing " ++ toString missing.length ++ " color" ++ plural ++ ": " ++
    ", ".intercalate missing

namespace Problem

/-- The group of a problem. -/
def group : Problem → ProblemGroup
  | flaw _ => .wording
  | missingPalette => .missingBlock
  | circular _ _ _ => .circularReference
  | incomplete _ _ => .completeness
  | _ => .resolution

/-- Only an incomplete block is no error. -/
def severity : Problem → Severity
  | incomplete _ _ => .warning
  | _ => .error

/-- The code of a problem in reports. -/
def code : Problem → String
  | flaw kind => kind.code
  | missingPalette => "E1001"
  | unknownBlock _ _ => "E1002"
  | duplicateBlock _ => "E1003"
  | duplicateDefinition _ => "E1004"
  | blockInside _ => "E1005"
  | reservedName => "E1006"
  | nameNotAllowed _ _ _ => "E1006"
  | topLevelAttribute _ => "E1007"
  | circular _ _ _ => "E2002"
  | flagNotTruth _ _ => "E2004"
  | notLiteral _ => "E2004"
  | unresolved failure => failure.code
  | incomplete _ _ => "W0001"

/-- The wording of a problem in reports. -/
def message : Problem → String
  | flaw kind => kind.message
  | topLevelAttribute name => "attribute `" ++ name ++ "` must be inside a block"
  | unknownBlock name known =>
    "unknown block `" ++ name ++ "`; expected one of: " ++ ", ".intercalate known
  | duplicateBlock name => "duplicate `" ++ name ++ "` block"
  | missingPalette => "missing required `" ++ paletteName ++ "` block"
  | blockInside parent => "`" ++ parent ++ "` does not allow nested blocks"
  | reservedName => "`color` is reserved for a block's own color and cannot be a block"
  | duplicateDefinition path => "`" ++ dotted path ++ "` is already defined"
  | nameNotAllowed block name allowed =>
    "unknown `" ++ block ++ "` color `" ++ name ++ "`; expected one of: " ++
      ", ".intercalate allowed
  | flagNotTruth name found => "`" ++ name ++ "` must be true or false, found " ++ found.name
  | notLiteral name => "`" ++ dotted [metaName, name] ++ "` must be a literal value"
  | circular name target reason =>
    "circular reference: `" ++ name ++ "` refers to `" ++ dotted target ++ "`, " ++
      reason.describe
  | unresolved failure => failure.message
  | incomplete block missing =>
    missingColors block missing (if missing.length == 1 then "" else "s")

end Problem

/-- A problem and where it stands. -/
structure Diagnostic where
  problem : Problem
  span : Span
deriving Repr, DecidableEq

namespace Diagnostic

/-- The diagnostic of a flaw in the wording. -/
def ofFlaw (f : Flaw) : Diagnostic := ⟨.flaw f.kind, f.span⟩

/-- The diagnostic is an error, and no warning. -/
def isError (d : Diagnostic) : Bool := d.problem.severity == .error

/-- The diagnostic on one line: severity, code, wording and place. -/
def display (d : Diagnostic) : String :=
  (match d.problem.severity with
    | .error => "error"
    | .warning => "warning") ++
    "[" ++ d.problem.code ++ "]: " ++ d.problem.message ++ " at " ++ d.span.display

end Diagnostic

end ColorTheme
