import ColorTheme.Editor.Document
import ColorTheme.Text.Alphanumeric
import ColorTheme.Text.Fields

/-!
# The path under the cursor

* `Document.pathAt?` is the longest run of path characters that touches a position.
* `CursorPath.throughCursor` is that path up to the end of the segment that the cursor is in.
-/

set_option autoImplicit false

namespace ColorTheme

/-- Characters of names, as an editor sees them while a name is being typed. -/
def isWordChar (c : Char) : Bool := isAlphanumeric c || c == '_' || c == '-'

/-- Characters of dotted paths. -/
def isPathChar (c : Char) : Bool := isWordChar c || c == '.'

/-- A dotted path, and how many of its characters are before the cursor. -/
structure CursorPath where
  text : List Char
  cursor : Nat
deriving Repr, DecidableEq

/-- The first segments, up to and including the one whose end reaches `cursor`, where the first of
them begins at `start`. -/
def segmentsThrough (cursor start : Nat) : List (List Char) → List (List Char)
  | [] => []
  | segment :: rest =>
    let stop := start + segment.length
    if cursor ≤ stop then [segment] else segment :: segmentsThrough cursor (stop + 1) rest

namespace CursorPath

/-- The segments between the dots. -/
def segments (p : CursorPath) : List (List Char) := fields '.' p.text

/-- The segments up to and including the one that the cursor is in or at the end of. -/
def throughCursor (p : CursorPath) : List (List Char) := segmentsThrough p.cursor 0 p.segments

end CursorPath

/-- The path that touches a position; nothing if there is none, or nothing but dots. -/
def Document.pathAt? (d : Document) (p : Position) : Option CursorPath :=
  (d.charIndex? p).bind fun index =>
    let left := ((d.chars.take index).reverse.takeWhile isPathChar).reverse
    let right := (d.chars.drop index).takeWhile isPathChar
    let path : CursorPath := ⟨left ++ right, left.length⟩
    if path.segments.all List.isEmpty then none else some path

end ColorTheme
