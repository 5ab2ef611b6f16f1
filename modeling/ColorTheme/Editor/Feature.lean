import ColorTheme.Analysis
import ColorTheme.Editor.Cursor
import ColorTheme.Text.Blank

/-!
# What an editor shows

Each feature is a function of a document and of what is known of it.

* `hover?` shows the color under the cursor, `definition?` where the path under it is defined.
* `swatches` are all colors with their places, `presentation?` is the text by which a literal is
  replaced when another color is picked for it.
* `notices` are the diagnostics with their places.
-/

set_option autoImplicit false

namespace ColorTheme

/-- A text to show and the place it belongs to. -/
structure Hover where
  text : String
  range : Range
deriving Repr, DecidableEq

/-- The color of the expression under the cursor in two notations; the text of a reference stands
above them. -/
def hover? (d : Document) (a : Analysis) (p : Position) : Option Hover :=
  (d.offset? p).bind fun offset =>
    (a.colorAt? offset).bind fun location =>
      let range := d.range location.span
      let shown := "`" ++ location.color.hex ++ "` · `" ++ location.color.rgb ++ "`"
      if location.isReference then
        (d.textIn? range).map fun source =>
          ⟨"**" ++ String.ofList source ++ "**\n\n" ++ shown, range⟩
      else some ⟨shown, range⟩

/-- The place where the path under the cursor, cut behind the segment that the cursor is in, is
defined. -/
def definition? (table : BlockTable) (d : Document) (a : Analysis) (p : Position) :
    Option Range :=
  (d.pathAt? p).bind fun path =>
    if (path.segments.head?.any fun root => table.knows (String.ofList root)) then
      (a.symbols.get? (path.throughCursor.map String.ofList)).map d.range
    else none

/-- A color and the place of its expression. -/
structure Swatch where
  range : Range
  color : Color
deriving Repr, DecidableEq

/-- All colors of a document. -/
def swatches (d : Document) (a : Analysis) : List Swatch :=
  a.colors.map fun location => ⟨d.range location.span, location.color⟩

/-- The literal that replaces the text in a range when `color` is picked for it.  It keeps the
quotes or the lack of them; references and calls are not replaced. -/
def presentation? (d : Document) (range : Range) (color : Color) : Option String :=
  (d.textIn? range).bind fun source =>
    match trimStart isBlank source with
    | '"' :: _ => some ("\"" ++ color.hex ++ "\"")
    | '#' :: _ => some color.hex
    | _ => none

/-- A diagnostic and its place. -/
structure Notice where
  range : Range
  problem : Problem
deriving Repr, DecidableEq

/-- The diagnostics of a document. -/
def notices (d : Document) (a : Analysis) : List Notice :=
  a.diagnostics.map fun diagnostic => ⟨d.range diagnostic.span, diagnostic.problem⟩

end ColorTheme
