import ColorTheme.Editor.Cursor
import ColorTheme.Text.Blank

/-!
# The blocks around the cursor

While a document is being typed it rarely follows the grammar, so the blocks around the cursor are
found in the text before it: each brace opens or closes a block, except in strings and in line
comments, and a block is called by the word right before its brace.

* `openBlocks` are the blocks that a text leaves open, the innermost first.
* `assignedNames` are the names to which the rest of a block gives values.
-/

set_option autoImplicit false

namespace ColorTheme

/-- A block that is open, and the index of the character behind its brace. -/
structure OpenBlock where
  name : List Char
  bodyStart : Nat
deriving Repr, DecidableEq

/-- Whether the scan is in a string (and behind a backslash in it), in a comment, or in neither. -/
inductive ScanMode
  | code
  | string (escaped : Bool)
  | comment
deriving Repr, DecidableEq

/-- The open blocks, the innermost first, the last complete word, and the word that is being
read. -/
structure Scan where
  stack : List OpenBlock
  lastWord : List Char
  word : List Char
deriving Repr, DecidableEq

namespace Scan

/-- The scan without any words. -/
def forgetWords (s : Scan) : Scan := ⟨s.stack, [], []⟩

/-- The scan behind an opening brace, where the next character has the given index. -/
def openBlock (s : Scan) (next : Nat) : Scan :=
  ⟨⟨if s.word.isEmpty then s.lastWord else s.word, next⟩ :: s.stack, [], []⟩

/-- The scan behind a closing brace. -/
def closeBlock (s : Scan) : Scan := ⟨s.stack.tail, [], []⟩

/-- The scan behind a character that is no brace and begins no string and no comment. -/
def readChar (s : Scan) (c : Char) : Scan :=
  if isWordChar c then { s with word := s.word ++ [c] }
  else
    let complete := if s.word.isEmpty then s.lastWord else s.word
    ⟨s.stack, if isBlank c then complete else [], []⟩

/-- The scan behind the given characters, the first of which has index `index`. -/
def run (s : Scan) : ScanMode → Nat → List Char → Scan
  | _, _, [] => s
  | .comment, index, c :: cs => s.run (if c = '\n' then .code else .comment) (index + 1) cs
  | .string escaped, index, c :: cs =>
    if c = '\\' ∧ escaped = false then s.run (.string true) (index + 1) cs
    else if (c = '"' ∧ escaped = false) ∨ c = '\n' then s.run .code (index + 1) cs
    else s.run (.string false) (index + 1) cs
  | .code, index, '/' :: '/' :: cs => { s with word := [] }.run .comment (index + 2) cs
  | .code, index, c :: cs =>
    if c = '"' then s.forgetWords.run (.string false) (index + 1) cs
    else if c = '{' then (s.openBlock (index + 1)).run .code (index + 1) cs
    else if c = '}' then s.closeBlock.run .code (index + 1) cs
    else (s.readChar c).run .code (index + 1) cs

end Scan

/-- The blocks that a text leaves open, the innermost first. -/
def openBlocks (text : List Char) : List OpenBlock := (Scan.run ⟨[], [], []⟩ .code 0 text).stack

/-- The depth of braces behind a line that begins at the given depth; nothing when the line closes
the block that the depth is counted from. -/
def depthBehind : Nat → List Char → Option Nat
  | depth, [] => some depth
  | depth, c :: cs =>
    if c = '{' then depthBehind (depth + 1) cs
    else if c = '}' then
      match depth with
      | 0 => none
      | outer + 1 => depthBehind outer cs
    else depthBehind depth cs

/-- The name to the left of the first `=` of a line. -/
def assignedName? (line : List Char) : Option (List Char) :=
  if line.contains '=' then
    let name := trim (line.takeWhile (· != '='))
    if name.isEmpty then none else if name.all isWordChar then some name else none
  else none

/-- The names that lines of a block give values to, up to its closing brace. -/
def namesInLines : Nat → List (List Char) → List (List Char)
  | _, [] => []
  | depth, line :: lines =>
    let here := if depth == 0 then (assignedName? line).toList else []
    match depthBehind depth line with
    | none => here
    | some next => here ++ namesInLines next lines

/-- The names that the text behind the opening brace of a block gives values to. -/
def assignedNames (body : List Char) : List (List Char) := namesInLines 0 (fields '\n' body)

end ColorTheme
