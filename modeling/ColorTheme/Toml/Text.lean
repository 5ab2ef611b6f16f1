import ColorTheme.Text.Hex

/-!
# Texts in TOML

A text stands in quotes, where a backslash begins an escape, or in apostrophes, where every
character stands for itself.  Either may be tripled, and then the text may have several lines.

* `readText` reads a text in any of the four forms, `readNameText` one on a single line.
* `writeText` chooses the plainest form that can hold a text.
-/

set_option autoImplicit false

namespace ColorTheme.Toml

/-- A character that may stand in a line: a tab, or no control. -/
def isPlain (c : Char) : Bool := c == '\t' || (32 ≤ c.toNat && c.toNat != 127)

/-- The blanks inside a line. -/
def isBlank (c : Char) : Bool := c == ' ' || c == '\t'

/-! ## Reading -/

/-- What a character is part of: the text itself, where blanks and line breaks may have to be
skipped; an escape; the digits of a code point; or the rest of a line that an escape ends. -/
inductive TextState
  | text (skip : Bool)
  | escape
  | code (left : Nat) (value : Nat)
  | lineEnd
deriving Repr, DecidableEq

/-- The character that a letter stands for after a backslash. -/
def escaped? (c : Char) : Option Char :=
  [('b', '\x08'), ('t', '\t'), ('n', '\n'), ('f', '\x0c'), ('r', '\r'), ('"', '"'),
    ('\\', '\\')].lookup c

/-- The character with the given code point. -/
def charOfCode? (code : Nat) : Option Char :=
  if code.isValidChar then some (Char.ofNat code) else none

/-- A result with one character more at the beginning of the text. -/
def withChar (c : Char) : Option (List Char × List Char) → Option (List Char × List Char) :=
  Option.map fun (found, rest) => (c :: found, rest)

/-- The text up to the closing `mark`, and what follows it.  With `lines` the text may have
several lines and three marks close it, with up to two more that belong to the text. -/
def readUntil (mark : Char) (lines : Bool) : TextState → List Char → Option (List Char × List Char)
  | _, [] => none
  | .text skip, c :: cs =>
    if skip && (isBlank c || c == '\n') then readUntil mark lines (.text true) cs
    else if c = mark then
      if lines then
        match cs with
        | second :: third :: rest =>
          if second = mark ∧ third = mark then
            let more := (rest.take 2).takeWhile (· == mark)
            some (more, rest.drop more.length)
          else withChar c (readUntil mark lines (.text false) cs)
        | _ => none
      else some ([], cs)
    else if c = '\\' ∧ mark = '"' then readUntil mark lines .escape cs
    else if isPlain c || (c == '\n' && lines) then
      withChar c (readUntil mark lines (.text false) cs)
    else none
  | .escape, c :: cs =>
    if c = 'u' then readUntil mark lines (.code 3 0) cs
    else if c = 'U' then readUntil mark lines (.code 7 0) cs
    else if lines && isBlank c then readUntil mark lines .lineEnd cs
    else if lines && c == '\n' then readUntil mark lines (.text true) cs
    else (escaped? c).bind fun meant => withChar meant (readUntil mark lines (.text false) cs)
  | .code left value, c :: cs =>
    (hexDigit? c).bind fun digit =>
      match left with
      | 0 =>
        (charOfCode? (16 * value + digit)).bind fun meant =>
          withChar meant (readUntil mark lines (.text false) cs)
      | left + 1 => readUntil mark lines (.code left (16 * value + digit)) cs
  | .lineEnd, c :: cs =>
    if isBlank c then readUntil mark lines .lineEnd cs
    else if c = '\n' then readUntil mark lines (.text true) cs
    else none

/-- A text on one line and what follows it. -/
def readNameText : List Char → Option (List Char × List Char)
  | '"' :: cs => readUntil '"' false (.text false) cs
  | '\'' :: cs => readUntil '\'' false (.text false) cs
  | _ => none

/-- The lines of a text, where a break right after the opening marks does not count. -/
def readLines (mark : Char) : List Char → Option (List Char × List Char)
  | '\n' :: cs => readUntil mark true (.text false) cs
  | cs => readUntil mark true (.text false) cs

/-- A text and what follows it. -/
def readText : List Char → Option (List Char × List Char)
  | '"' :: '"' :: '"' :: cs => readLines '"' cs
  | '\'' :: '\'' :: '\'' :: cs => readLines '\'' cs
  | cs => readNameText cs

/-! ## Writing -/

/-- The length of the longest run of `mark` in a text. -/
def longestRun (mark : Char) (cs : List Char) : Nat :=
  (cs.foldl (fun (longest, run) c =>
    if c = mark then (max longest (run + 1), run + 1) else (longest, 0)) (0, 0)).1

/-- A code point as four digits. -/
def fourDigits (n : Nat) : List Char :=
  [n / 4096, n / 256, n / 16, n].map fun m => (Nat.digitChar (m % 16)).toUpper

/-- A character between quotes, if it is no quote. -/
def escapeChar (lines : Bool) (c : Char) : List Char :=
  if c = '\n' ∧ lines then [c]
  else
    match [('\x08', 'b'), ('\t', 't'), ('\n', 'n'), ('\x0c', 'f'), ('\r', 'r'),
      ('\\', '\\')].lookup c with
    | some letter => ['\\', letter]
    | none => if isPlain c then [c] else '\\' :: 'u' :: fourDigits c.toNat

/-- A text between quotes.  The last `run` characters before it were quotes; between tripled
quotes two of them in a row need no escape. -/
def escapeText (lines : Bool) : Nat → List Char → List Char
  | _, [] => []
  | run, c :: cs =>
    if c = '"' then
      if lines ∧ run < 2 then c :: escapeText lines (run + 1) cs
      else '\\' :: c :: escapeText lines 0 cs
    else escapeChar lines c ++ escapeText lines 0 cs

/-- A text in the first form that can hold it: in quotes, in apostrophes, in tripled quotes, in
tripled apostrophes, each without escapes, and otherwise in quotes with escapes. -/
def writeText (cs : List Char) : List Char :=
  let quotes := longestRun '"' cs
  let apostrophes := longestRun '\'' cs
  let lines := cs.contains '\n'
  let backslash := cs.contains '\\'
  let shown := cs.all fun c => isPlain c || c == '\n'
  let open3 (mark : Char) : List Char := [mark, mark, mark] ++ if lines then ['\n'] else []
  let inQuotes := '"' :: escapeText false 0 cs ++ ['"']
  let inQuotes3 := open3 '"' ++ escapeText true 0 cs ++ ['"', '"', '"']
  if shown ∧ !backslash ∧ quotes = 0 ∧ !lines then inQuotes
  else if shown ∧ apostrophes = 0 ∧ !lines then '\'' :: cs ++ ['\'']
  else if shown ∧ !backslash ∧ quotes ≤ 2 then inQuotes3
  else if shown ∧ apostrophes ≤ 2 then open3 '\'' ++ cs ++ ['\'', '\'', '\'']
  else if lines then inQuotes3
  else inQuotes

end ColorTheme.Toml
