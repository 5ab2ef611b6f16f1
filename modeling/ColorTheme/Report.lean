import ColorTheme.Diagnostic
import ColorTheme.Text.Bytes
import ColorTheme.Text.Lines

/-!
# Reports

How a diagnostic is shown to somebody who reads the document in a terminal: a headline, and the
line and column where the problem stands, both counted from one and in characters.
-/

set_option autoImplicit false

namespace ColorTheme

/-- A diagnostic as it is shown. -/
structure Report where
  file : String
  headline : String
  place : Option (Nat × Nat)
deriving Repr, DecidableEq

/-- The number of characters before byte `offset`; all of them when no character begins there. -/
def charsBefore (source : List Char) (offset : Nat) : Nat :=
  match splitBytes? offset source with
  | some (before, _) => before.length
  | none => source.length

/-- The lines of a source.  After a break at the very end there is no further line. -/
def reportedLines (source : List Char) : List (List Char) :=
  (splitLines source).filter (!·.isEmpty)

/-- The line that holds the given character, and its place on that line.  What is past the end
belongs to the last line. -/
def placeIn : List (List Char) → Nat → Option (Nat × Nat)
  | [], _ => none
  | [_], index => some (0, index)
  | line :: rest, index =>
    if index < line.length then some (0, index)
    else (placeIn rest (index - line.length)).map fun (below, column) => (below + 1, column)

namespace Report

/-- How a severity is called at the head of a report. -/
def severityName : Severity → String
  | .error => "Error"
  | .warning => "Warning"

/-- The report of a diagnostic. -/
def ofDiagnostic (file source : String) (d : Diagnostic) : Report :=
  let cs := source.toList
  { file := file
    headline :=
      "[" ++ d.problem.code ++ "] " ++ severityName d.problem.severity ++ ": " ++ d.problem.message
    place := (placeIn (reportedLines cs) (charsBefore cs d.span.start)).map
      fun (line, column) => (line + 1, column + 1) }

/-- The file with line and column, where there is any. -/
def location? (r : Report) : Option String :=
  r.place.map fun (line, column) => r.file ++ ":" ++ toString line ++ ":" ++ toString column

/-- The report as it is printed. -/
def display (r : Report) : String :=
  r.headline ++ "\n" ++ match r.location? with
    | some place => "  at " ++ place ++ "\n"
    | none => "  in " ++ r.file ++ "\n"

end Report

end ColorTheme
