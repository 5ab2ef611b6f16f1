import ColorTheme.Text.Fields
import ColorTheme.Uri.Escape

/-!
# Paths in names of documents

A path is a row of segments, each behind a slash.  Dots in it are worked out, so that one document
has one path.

* `resolve` works them out in the segments of a path.
* `resolveFile` does so for a path on a local disk, which can begin with the letter of a drive.
* `resolve_ne_nil` : a path never loses its last segment.
-/

set_option autoImplicit false

namespace ColorTheme.Uri

/-- The segment stands for the directory itself. -/
def isHere (segment : List Char) : Bool :=
  [".", "%2e"].contains (String.ofList (segment.map Char.toLower))

/-- The segment stands for the directory above. -/
def isAbove (segment : List Char) : Bool :=
  ["..", ".%2e", "%2e.", "%2e%2e"].contains (String.ofList (segment.map Char.toLower))

/-- The segment begins as the letter of a drive does: a letter, a colon or bar, and then nothing
or a backslash. -/
def startsAsDrive : List Char → Bool
  | letter :: mark :: rest =>
    letter.isAlpha && (mark == ':' || mark == '|') && (rest.isEmpty || rest.head? == some '\\')
  | _ => false

/-- The segment is the letter of a drive. -/
def isDrive (segment : List Char) : Bool := startsAsDrive segment && segment.length == 2

/-- The directories above those in `done`, the last of which comes first.  There is nothing above
a drive. -/
def leave : List (List Char) → List (List Char)
  | [] => []
  | last :: done => if startsAsDrive last then last :: done else done

/-- The segments of a path with its dots worked out, behind the segments in `done`, the last of
which comes first.  The first segment of all is changed by `root`. -/
def resolveBehind (root : List Char → List Char) (done : List (List Char)) :
    List (List Char) → List (List Char)
  | [] => done.reverse
  | segment :: rest =>
    let ends := rest.isEmpty
    if isAbove segment then
      if ends then ([] :: leave done).reverse else resolveBehind root (leave done) rest
    else if isHere segment then
      if ends then ([] :: done).reverse else resolveBehind root done rest
    else resolveBehind root ((if done.isEmpty then root segment else segment) :: done) rest

/-- The segments of a path with its dots worked out and its characters escaped. -/
def resolve (segments : List (List Char)) : List (List Char) :=
  resolveBehind id [] (segments.map (escapeAll pathEscapes))

/-- The letter of a drive, with a colon behind it. -/
def driveForm (segment : List Char) : List Char :=
  if isDrive segment then segment.take 1 ++ [':'] else segment

/-- The segments of a path on a disk, worked out in the same way. -/
def resolveFile (segments : List (List Char)) : List (List Char) :=
  resolveBehind driveForm [] (segments.map (escapeAll pathEscapes))

/-- The text of a path. -/
def pathText (segments : List (List Char)) : List Char := '/' :: joinFields '/' segments

theorem resolveBehind_ne_nil (root : List Char → List Char) (done : List (List Char))
    {segments : List (List Char)} (h : segments ≠ []) : resolveBehind root done segments ≠ [] := by
  induction segments generalizing done with
  | nil => exact absurd rfl h
  | cons segment rest ih =>
    unfold resolveBehind
    cases rest with
    | nil => repeat' split <;> simp_all [resolveBehind]
    | cons next rest =>
      have later := fun done => ih done (by simp)
      repeat' split <;> simp_all

theorem resolve_ne_nil {segments : List (List Char)} (h : segments ≠ []) :
    resolve segments ≠ [] :=
  resolveBehind_ne_nil id [] (by simpa using h)

end ColorTheme.Uri
