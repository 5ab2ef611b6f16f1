import ColorTheme.Json
import ColorTheme.Text.Quoted
import ColorTheme.Theme

/-!
# Output targets

A theme is given out either as a JSON document that nests as its blocks do, or as a listing with
one line for each note and each color.

* `Node.toJson` : a node without children becomes its color, any other an object with its
  children and, under `color`, its own color.
* `Theme.listing` : the lines of the listing; the flags of a color stand at the end of its line.
* `Target.render` : the text that is given out.
-/

set_option autoImplicit false

namespace ColorTheme

/-- The forms in which a theme is given out. -/
inductive Target
  | json
  | flat
deriving Repr, DecidableEq, Inhabited

namespace Target

/-- The name of a target. -/
def name : Target → String
  | json => "json"
  | flat => "flat"

/-- How the names of its files end, without the dot. -/
def extension : Target → String
  | json => "json"
  | flat => "txt"

/-- The target with the given name. -/
def ofName? (name : String) : Option Target := [json, flat].find? (·.name == name)

end Target

/-! ## JSON -/

/-- A color by its text. -/
def Color.toJson (color : Color) : Json := .text color.hex

/-- A style by its color and its flags. -/
def Style.toJson (style : Style) : Json :=
  .ofMembers [("color", style.color.toJson), (StyleFlag.bold.name, .truth style.bold),
    (StyleFlag.italic.name, .truth style.italic), (StyleFlag.underline.name, .truth style.underline)]

namespace Node

mutual

/-- A color tree. -/
def toJson : Node → Json
  | mk (some color) [] => color.toJson
  | mk own children =>
    .ofMembers (own.toList.map (fun color => (colorKey, color.toJson)) ++ membersOf children)

/-- The members for the children of a node. -/
def membersOf : List (String × Node) → List (String × Json)
  | [] => []
  | (name, child) :: rest => (name, child.toJson) :: membersOf rest

end

end Node

namespace Theme

/-- The name under which the styles stand beside the blocks. -/
def stylesKey : String := "styles"

/-- The theme as one object: notes, blocks and, if there are any, styles. -/
def toJson (theme : Theme) : Json :=
  let notes : Json := .ofMembers (theme.notes.map fun (key, value) => (key, .text value))
  let styles : Json := .ofMembers (theme.styles.map fun (path, style) => (path, style.toJson))
  .ofMembers ((metaName, notes) :: theme.scopes.map (fun (block, tree) => (block, tree.toJson)) ++
    if theme.styles.isEmpty then [] else [(stylesKey, styles)])

/-! ## Listing -/

/-- The line of a note, without its end. -/
def noteLine (key value : String) : String :=
  metaName ++ "." ++ key ++ " = " ++ String.ofList (quote value.toList)

/-- The flags that are set. -/
def flagsOf (style : Style) : List StyleFlag :=
  [(StyleFlag.bold, style.bold), (.italic, style.italic), (.underline, style.underline)].filterMap
    fun (flag, set) => if set then some flag else none

/-- The line of a color, without its end. -/
def colorLine (block path : String) (color : Color) (flags : List StyleFlag) : String :=
  block ++ "." ++ path ++ " = " ++ color.hex ++ String.join (flags.map fun flag => " " ++ flag.name)

/-- The lines of a theme: its notes, then its colors block by block. -/
def listing (theme : Theme) : List String :=
  theme.notes.map (fun (key, value) => noteLine key value) ++
    theme.scopes.flatMap fun (block, tree) =>
      tree.flatten.map fun (path, color) =>
        colorLine block path color (((theme.styleOf? block path).map flagsOf).getD [])

end Theme

/-- The text of a theme for the given target. -/
def Target.render (theme : Theme) : Target → String
  | .json => theme.toJson.document
  | .flat => String.join (theme.listing.map (· ++ "\n"))

end ColorTheme
