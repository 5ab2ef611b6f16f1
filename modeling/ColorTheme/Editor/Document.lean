import ColorTheme.Text.Lines
import ColorTheme.Text.Position
import ColorTheme.Text.Span

/-!
# Open documents

A document is a text with a version.  Editors speak of its places as lines and characters, the
rest of the library as bytes.

* `Document.charIndex?` and `Document.positionOfChar` convert between positions and indices of
  characters, `Document.offset?` and `Document.position` between positions and byte offsets.  A
  character past the end of its line stands for the last place before the line feed of the line.
* `Document.apply` makes an edit; an edit whose places do not exist changes nothing.
-/

set_option autoImplicit false

namespace ColorTheme

/-- A document that an editor has open. -/
structure Document where
  version : Int
  text : String
deriving Repr, DecidableEq, Inhabited

/-- A change of a text: of the text in a range, or of all of it. -/
structure Edit where
  range : Option Range
  text : String
deriving Repr, DecidableEq

/-- The number of places on a line before its line feed, less one. -/
def lastPlace (line : List Char) : Nat :=
  if line.getLast? = some '\n' then line.length - 1 else line.length

/-- The index of the character that a byte offset lies in. -/
def charOfByte : List Char → Nat → Nat
  | [], _ => 0
  | c :: cs, offset => if c.utf8Size ≤ offset then charOfByte cs (offset - c.utf8Size) + 1 else 0

/-- The position of character `index` in the given lines, the first of which is line `line`. -/
def positionInLines (line index : Nat) : List (List Char) → Position
  | [] => ⟨line, index⟩
  | [_] => ⟨line, index⟩
  | first :: second :: rest =>
    if index < first.length then ⟨line, index⟩
    else positionInLines (line + 1) (index - first.length) (second :: rest)

namespace Document

/-- The characters of the text. -/
def chars (d : Document) : List Char := d.text.toList

/-- The lines of the text, with their breaks. -/
def lines (d : Document) : List (List Char) := splitLines d.chars

/-- The number of lines. -/
def lineCount (d : Document) : Nat := d.lines.length

/-- A line without the line feed and carriage return at its end. -/
def line? (d : Document) (index : Nat) : Option (List Char) :=
  (d.lines[index]?).map fun line =>
    (line.reverse.dropWhile fun c => c == '\n' || c == '\r').reverse

/-- The index of the character at a position, if there is such a line. -/
def charIndex? (d : Document) (p : Position) : Option Nat :=
  (d.lines[p.line]?).map fun line =>
    (d.lines.take p.line).flatten.length + min p.character (lastPlace line)

/-- The byte offset of a position, if there is such a line. -/
def offset? (d : Document) (p : Position) : Option Nat :=
  (d.charIndex? p).map fun index => byteLength (d.chars.take index)

/-- The position of a character. -/
def positionOfChar (d : Document) (index : Nat) : Position := positionInLines 0 index d.lines

/-- The position of a byte offset.  Offsets past the end stand for the end, and an offset inside a
character for the character. -/
def position (d : Document) (offset : Nat) : Position :=
  d.positionOfChar (charOfByte d.chars offset)

/-- The positions that a span reaches from and to. -/
def range (d : Document) (s : Span) : Range := ⟨d.position s.start, d.position s.stop⟩

/-- The characters from one position up to another, if both exist and are in order. -/
def textIn? (d : Document) (r : Range) : Option (List Char) :=
  (d.charIndex? r.start).bind fun start =>
    (d.charIndex? r.stop).bind fun stop =>
      if start ≤ stop then some ((d.chars.take stop).drop start) else none

/-- The text after an edit. -/
def edited (d : Document) (e : Edit) : String :=
  match e.range with
  | none => e.text
  | some r =>
    match d.charIndex? r.start, d.charIndex? r.stop with
    | some start, some stop =>
      if start ≤ stop then
        String.ofList (d.chars.take start ++ e.text.toList ++ d.chars.drop stop)
      else d.text
    | _, _ => d.text

/-- The document after an edit, which gives it a new version. -/
def apply (d : Document) (version : Int) (e : Edit) : Document := ⟨version, d.edited e⟩

/-- The document with another text, in a new version. -/
def withText (d : Document) (version : Int) (text : String) : Document :=
  { d with version := version, text := text }

end Document

end ColorTheme
