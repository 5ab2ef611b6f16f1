import ColorTheme.Analysis
import ColorTheme.Editor.OpenBlocks

/-!
# Completion

What may be typed next, judged by the text before the cursor:

1. behind a path into the palette, the children of the node that it leads to;
2. behind `=`, with nothing else on the line, the functions and the palette;
3. else what the innermost block around the cursor may still hold.
-/

set_option autoImplicit false

namespace ColorTheme

/-- What kind of thing is offered. -/
inductive SuggestionKind
  | function
  | module
  | property
  | color
deriving Repr, DecidableEq

/-- Something that may be typed next.  An insertion may be a snippet with places to fill in, and
may make the editor ask for the next suggestions. -/
structure Suggestion where
  label : String
  kind : SuggestionKind
  detail : Option String := none
  documentation : Option String := none
  insertion : Option String := none
  snippet : Bool := false
  asksAgain : Bool := false
deriving Repr, DecidableEq

/-- The completed segments of a path into the palette that ends a text, without the root and the
segment that is being typed. -/
def palettePath? (before : List Char) : Option (List (List Char)) :=
  let path := (before.reverse.takeWhile isPathChar).reverse
  match fields '.' path with
  | root :: second :: rest =>
    if root = paletteName.toList then some (second :: rest).dropLast else none
  | _ => none

/-- A line with a name and `=` before the cursor, and nothing behind it. -/
def isEmptyValue (before after : List Char) : Bool :=
  match (trimEnd isBlank before).reverse with
  | '=' :: left =>
    let name := trim left.reverse
    isAllBlank after && !name.isEmpty && name.all isWordChar
  | _ => false

/-- The suggestion of a child of a node of the palette. -/
def Suggestion.ofChild (name : String) (child : Node) : Suggestion :=
  let hex := child.color.map Color.hex
  if child.shape = .leaf then { label := name, kind := .color, detail := hex, documentation := hex }
  else
    { label := name, kind := .module
      detail := some (match hex with
        | some shown => "group (" ++ shown ++ ")"
        | none => "group") }

/-- The suggestion of an attribute. -/
def Suggestion.ofAttribute (kind : SuggestionKind) (name : String) : Suggestion :=
  { label := name, kind := kind, insertion := some (name ++ " = ") }

/-- The suggestion of a function of the language. -/
def Suggestion.ofBuiltin (function : Builtin) : Suggestion :=
  { label := function.name, kind := .function
    detail := some (function.name ++ "(color, percent)")
    documentation := some (match function with
      | .brighten => "Raise OKLCH lightness by a percentage."
      | .darken => "Lower OKLCH lightness by a percentage.")
    insertion := some (function.name ++ "($\x7b1:" ++ paletteName ++ ".\x7d, $\x7b2:10\x7d)")
    snippet := true }

/-- The suggestion of the palette as the root of a path. -/
def Suggestion.palette : Suggestion :=
  { label := paletteName, kind := .module, detail := some (paletteName ++ " reference")
    insertion := some (paletteName ++ "."), asksAgain := true }

/-- The suggestion of a top-level block. -/
def Suggestion.ofBlock (name : String) : Suggestion :=
  { label := name, kind := .module, detail := some (name ++ " block")
    insertion := some (name ++ " \x7b\n\t$0\n\x7d"), snippet := true }

/-- The children of the palette node that the given segments lead to. -/
def paletteSuggestions (a : Analysis) (segments : List (List Char)) : List Suggestion :=
  match (a.scope? paletteName).bind (Node.get? (segments.map String.ofList)) with
  | none => []
  | some node =>
    (node.children.filter fun (name, _) => name != colorKey).map fun (name, child) =>
      .ofChild name child

/-- The attributes among `names` that are not in `assigned`, as suggestions. -/
def remaining (kind : SuggestionKind) (names : List String) (assigned : List (List Char)) :
    List Suggestion :=
  (names.filter fun name => !assigned.contains name.toList).map (.ofAttribute kind)

/-- What the innermost of the given blocks may still hold. -/
def blockSuggestions (table : BlockTable) (text : List Char) : List OpenBlock → List Suggestion
  | [] => table.blockNames.map .ofBlock
  | current :: outer =>
    let assigned := assignedNames (text.drop current.bodyStart)
    if outer.head?.any (·.name == "syntax".toList) then
      remaining .property [colorKey, StyleFlag.bold.name, StyleFlag.italic.name,
        StyleFlag.underline.name] assigned
    else if current.name = ansiName.toList then remaining .color ansiNames assigned
    else []

/-- What may be typed at a position. -/
def suggestions (table : BlockTable) (d : Document) (a : Analysis) (p : Position) :
    List Suggestion :=
  match d.line? p.line, d.charIndex? p with
  | some line, some index =>
    let before := line.take p.character
    let after := line.drop p.character
    match palettePath? before with
    | some segments => paletteSuggestions a segments
    | none =>
      if isEmptyValue before after then Builtin.all.map .ofBuiltin ++ [.palette]
      else blockSuggestions table d.chars (openBlocks (d.chars.take index))
  | _, _ => []

end ColorTheme
