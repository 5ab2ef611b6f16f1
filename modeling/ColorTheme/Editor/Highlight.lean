import ColorTheme.BlockTable
import ColorTheme.Item.Reading
import ColorTheme.Text.Position
import ColorTheme.Value

/-!
# Highlighting

The words of a document by what they mean: block names, attribute names, the segments of paths
into known blocks, functions, numbers and bare colors.  Quoted strings are left to the editor.

* `highlights` lists them in the order of the source.
* `encodeHighlights` writes each as five numbers, its place relative to the one before it.
-/

set_option autoImplicit false

namespace ColorTheme

/-- What a highlighted word is, in the order of their numbers. -/
inductive HighlightKind
  | root
  | property
  | function
  | keyword
  | string
  | number
deriving Repr, DecidableEq

/-- What makes a highlighted word special, in the order of their bits. -/
inductive HighlightMark
  | declaration
  | defaultLibrary
deriving Repr, DecidableEq

namespace HighlightKind

/-- All kinds, in the order of their numbers. -/
def all : List HighlightKind := [.root, .property, .function, .keyword, .string, .number]

/-- What editors call a kind. -/
def name : HighlightKind → String
  | root => "namespace"
  | property => "property"
  | function => "function"
  | keyword => "keyword"
  | string => "string"
  | number => "number"

/-- The number of a kind. -/
def index : HighlightKind → Nat
  | root => 0
  | property => 1
  | function => 2
  | keyword => 3
  | string => 4
  | number => 5

end HighlightKind

namespace HighlightMark

/-- All marks, in the order of their bits. -/
def all : List HighlightMark := [.declaration, .defaultLibrary]

/-- What editors call a mark. -/
def name : HighlightMark → String
  | declaration => "declaration"
  | defaultLibrary => "defaultLibrary"

/-- The number of a mark, as a set of bits. -/
def bits : HighlightMark → Nat
  | declaration => 1
  | defaultLibrary => 2

end HighlightMark

/-- A word to highlight. -/
structure Highlight where
  span : Span
  kind : HighlightKind
  mark : Option HighlightMark
deriving Repr, DecidableEq

/-- The text of a bare literal is a color: `#` and six hexadecimal digits. -/
def isHexColor (text : String) : Bool :=
  text.toList.head? == some '#' && text.toList.length == 7 &&
    text.toList.tail.all fun c => (hexDigit? c).isSome

mutual

/-- The words to highlight in an expression. -/
def Expr.highlights (table : BlockTable) : Expr → List Highlight
  | .quoted _ _ => []
  | .hex text span => if isHexColor text then [⟨span, .string, none⟩] else []
  | .number _ span => [⟨span, .number, none⟩]
  | .truth _ _ => []
  | .path root rest _ =>
    if table.knows root.name then
      ⟨root.span, .root, none⟩ :: rest.map fun segment => ⟨segment.span, .property, none⟩
    else []
  | .call name args _ =>
    ⟨name.span, .function, (Builtin.ofName? name.name).map fun _ => .defaultLibrary⟩ ::
      highlightsOfArgs table args

/-- The words to highlight in the arguments of a call. -/
def highlightsOfArgs (table : BlockTable) : List Expr → List Highlight
  | [] => []
  | arg :: args => arg.highlights table ++ highlightsOfArgs table args

end

mutual

/-- The words to highlight in an item. -/
def Item.highlights (table : BlockTable) : Item → List Highlight
  | .assignment a => ⟨a.name.span, .property, some .declaration⟩ :: a.value.highlights table
  | .block kind body _ => ⟨kind.span, .keyword, none⟩ :: highlightsOfItems table body

/-- The words to highlight in a body. -/
def highlightsOfItems (table : BlockTable) : List Item → List Highlight
  | [] => []
  | item :: items => item.highlights table ++ highlightsOfItems table items

end

/-- A highlighted word with its place and its length in characters. -/
structure PlacedHighlight where
  position : Position
  length : Nat
  kind : HighlightKind
  mark : Option HighlightMark
deriving Repr, DecidableEq

/-- The words of a text to highlight, in the order of the source. -/
def highlights (table : BlockTable) (text : String) : List PlacedHighlight :=
  (highlightsOfItems table (Body.read text).items).filterMap fun h =>
    (h.span.slice? text.toList).map fun word =>
      ⟨.ofOffset text.toList h.span.start, word.length, h.kind, h.mark⟩

/-- Five numbers for each word: how many lines and characters it is behind the last one, which
stood at `last`, its length, its kind and its mark.  On a new line characters count from its
start. -/
def encodeHighlights (last : Position) : List PlacedHighlight → List Nat
  | [] => []
  | h :: rest =>
    let line := h.position.line - last.line
    let character :=
      if line == 0 then h.position.character - last.character else h.position.character
    line :: character :: h.length :: h.kind.index :: (h.mark.map HighlightMark.bits).getD 0 ::
      encodeHighlights h.position rest

end ColorTheme
