import ColorTheme.Toml.Scalar
import ColorTheme.Toml.Table
import ColorTheme.Toml.Text

/-!
# Reading TOML

The text of a document line by line.  A line gives a value to a key, opens a table by a header, or
says nothing; anything else spoils the whole document.

* `readValue` reads a value, with at most seventy-nine arrays and tables around each other.
* `Toml.ofText?` reads a document.
-/

set_option autoImplicit false

namespace ColorTheme.Toml

/-- The text from its first character that is no blank. -/
def skipBlanks (cs : List Char) : List Char := cs.dropWhile isBlank

/-- What follows the character `mark`, which may have blanks before it. -/
def after? (mark : Char) (cs : List Char) : Option (List Char) :=
  match skipBlanks cs with
  | c :: rest => if c = mark then some rest else none
  | [] => none

/-- What follows a line that says nothing more. -/
def afterLine? (cs : List Char) : Option (List Char) :=
  match skipBlanks cs with
  | [] => some []
  | '\n' :: rest => some rest
  | '#' :: comment =>
    match comment.dropWhile isPlain with
    | [] => some []
    | '\n' :: rest => some rest
    | _ => none
  | _ => none

/-- The text without the blanks, line breaks and comments at its beginning.  With `inComment` it
begins inside a comment. -/
def skipSpace? (inComment : Bool) : List Char → Option (List Char)
  | [] => some []
  | c :: cs =>
    if c = '\n' then skipSpace? false cs
    else if inComment then if isPlain c then skipSpace? true cs else none
    else if isBlank c then skipSpace? false cs
    else if c = '#' then skipSpace? true cs
    else some (c :: cs)

/-! ## Keys -/

/-- The characters of keys without quotes. -/
def isNameChar (c : Char) : Bool := c.isAlphanum || c == '-' || c == '_'

/-- A name in a key, and what follows it. -/
def readName (cs : List Char) : Option (List Char × List Char) :=
  match cs.span isNameChar with
  | ([], _) => readNameText cs
  | found => some found

/-- A dotted key of at most `room` names, split before its last name, and what follows it. -/
def readKey : Nat → List Char → Option ((List String × String) × List Char)
  | 0, _ => none
  | room + 1, cs =>
    (readName (skipBlanks cs)).bind fun (name, rest) =>
      match after? '.' rest with
      | some rest =>
        (readKey room rest).map fun ((path, last), rest) =>
          ((String.ofList name :: path, last), rest)
      | none => some (([], String.ofList name), skipBlanks rest)

/-- The greatest number of names in a key. -/
def longestKey : Nat := 79

/-! ## Values -/

/-- A reader of one thing: the thing and what follows it. -/
abbrev Reader (α : Type) := List Char → Option (α × List Char)

/-- The items of an array from a place where one may begin, up to the closing bracket.  Each takes
at least one character, so that `room` need not be greater than the length of the text. -/
def readItems (item : Reader Toml) : Nat → Reader (List Toml)
  | 0, _ => none
  | room + 1, cs =>
    (skipSpace? false cs).bind fun cs =>
      match cs with
      | ']' :: rest => some ([], rest)
      | cs =>
        (item cs).bind fun (value, rest) => (skipSpace? false rest).bind fun rest =>
          match rest with
          | ',' :: rest => (readItems item room rest).map fun (values, rest) => (value :: values, rest)
          | ']' :: rest => some ([value], rest)
          | _ => none

/-- A key with its value, and what follows them. -/
def readPair (item : Reader Toml) : Reader ((List String × String) × Toml) := fun cs =>
  (readKey longestKey cs).bind fun (key, rest) => (after? '=' rest).bind fun rest =>
    (item (skipBlanks rest)).map fun (value, rest) => ((key, value), rest)

/-- The entries of a table between braces, added to those that it has already, up to the closing
brace. -/
def readEntries (item : Reader Toml) : Nat → Table → Reader Table
  | 0, _, _ => none
  | room + 1, entries, cs =>
    (readPair item cs).bind fun (((path, key), value), rest) =>
      (define path key value entries).bind fun entries =>
        match skipBlanks rest with
        | ',' :: rest => readEntries item room entries rest
        | '\x7d' :: rest => some (entries, rest)
        | _ => none

/-- A text, a truth value, a number, a date or a time that begins at once. -/
def readSimple : Reader Toml := fun cs =>
  if cs.head? = some '"' ∨ cs.head? = some '\'' then
    (readText cs).map fun (found, rest) => (.text (String.ofList found), rest)
  else
    match cs.span isNameChar with
    | (['t', 'r', 'u', 'e'], rest) => some (.truth true, rest)
    | (['f', 'a', 'l', 's', 'e'], rest) => some (.truth false, rest)
    | _ => (readWord cs).map fun (found, rest) => (.word (String.ofList found), rest)

/-- A value that begins at once, with at most `depth` arrays and tables around each other. -/
def readValue : Nat → Reader Toml
  | 0, cs => readSimple cs
  | depth + 1, '[' :: rest =>
    (readItems (readValue depth) (rest.length + 1) rest).map fun (items, rest) =>
      (.array items, rest)
  | depth + 1, '\x7b' :: rest =>
    match after? '\x7d' rest with
    | some rest => some (.table .inline [], rest)
    | none =>
      (readEntries (readValue depth) rest.length [] rest).map fun (entries, rest) =>
        (.table .inline entries, rest)
  | _ + 1, cs => readSimple cs

/-- The greatest number of arrays and tables around each other. -/
def deepest : Nat := 79

/-! ## Documents -/

/-- A document so far: its entries, and the header that is in force. -/
structure Draft where
  entries : Table
  header : List String
deriving Inhabited

/-- Carries out one line that says something, and gives what follows it. -/
def Draft.enter (draft : Draft) (cs : List Char) : Option (Draft × List Char) :=
  match cs with
  | '[' :: '[' :: rest =>
    (readKey longestKey rest).bind fun ((path, key), rest) =>
      match rest with
      | ']' :: ']' :: rest =>
        (afterLine? rest).bind fun rest => (openElement path key draft.entries).map fun entries =>
          (⟨entries, path ++ [key]⟩, rest)
      | _ => none
  | '[' :: rest =>
    (readKey longestKey rest).bind fun ((path, key), rest) =>
      match rest with
      | ']' :: rest =>
        (afterLine? rest).bind fun rest => (openTable path key draft.entries).map fun entries =>
          (⟨entries, path ++ [key]⟩, rest)
      | _ => none
  | cs =>
    (readPair (readValue deepest) cs).bind fun (((path, key), value), rest) =>
      (afterLine? rest).bind fun rest =>
        (defineIn draft.header path key value draft.entries).map fun entries =>
          (⟨entries, draft.header⟩, rest)

/-- Carries out all lines, of which there are at most `room`. -/
def Draft.enterAll : Nat → Draft → List Char → Option Draft
  | 0, _, _ => none
  | room + 1, draft, cs =>
    match skipBlanks cs with
    | [] => some draft
    | rest =>
      match afterLine? rest with
      | some rest => enterAll room draft rest
      | none => (draft.enter rest).bind fun (next, rest) => enterAll room next rest

/-- The text with single characters as its line breaks; a carriage return stands only before
them. -/
def plainBreaks : List Char → Option (List Char)
  | [] => some []
  | '\r' :: '\n' :: cs => (plainBreaks cs).map ('\n' :: ·)
  | '\r' :: _ => none
  | c :: cs => (plainBreaks cs).map (c :: ·)

/-- A text without the mark of its byte order. -/
def withoutMark : List Char → List Char
  | '\ufeff' :: cs => cs
  | cs => cs

/-- The entries of a document. -/
def ofText? (text : String) : Option Table :=
  (plainBreaks (withoutMark text.toList)).bind fun cs =>
    (Draft.enterAll (cs.length + 1) ⟨[], []⟩ cs).map Draft.entries

end ColorTheme.Toml
