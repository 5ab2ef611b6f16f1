import ColorTheme.Token

/-!
# From text to tokens

A text is cut into pieces, each as long as possible: a token, or a run of blanks or a comment,
which is no token.  Every character lies in exactly one piece, so no input is refused; what
starts no token is an `invalid` piece.

* `pieces` cuts a text, `locate` gives the pieces their byte offsets, `tokenize` does both and
  closes the list with `endOfFile`.
* `flatten_pieces` : the pieces, put together, are the text.
* `text_ne_nil_of_mem_pieces` : no piece is empty.
-/

set_option autoImplicit false

namespace ColorTheme

/-- Blanks that are no token. -/
def isGap (c : Char) : Bool := c == ' ' || c == '\t' || c == '\r' || c == '\x0c'

/-- Characters that start a name. -/
def isNameStart (c : Char) : Bool := c.isAlpha || c == '_'

/-- Characters that continue a name. -/
def isNameRest (c : Char) : Bool := c.isAlphanum || c == '_' || c == '-'

/-- The length of the longest run of characters in class `p` at the head of a text. -/
def runLength (p : Char → Bool) (cs : List Char) : Nat := (cs.takeWhile p).length

/-- How far a number goes on: digits, then a point if a digit follows it. -/
def numberLength (cs : List Char) : Nat :=
  let whole := runLength Char.isDigit cs
  match cs.drop whole with
  | '.' :: d :: ds => if d.isDigit then whole + 2 + runLength Char.isDigit ds else whole
  | _ => whole

/-- How far a string goes on after its opening quote, and whether its closing quote is reached.
A backslash takes the character after it along, unless that ends the line. -/
def quotedLength : List Char → Nat × Bool
  | '"' :: _ => (1, true)
  | '\n' :: _ => (0, false)
  | ['\\'] => (0, false)
  | '\\' :: '\n' :: _ => (0, false)
  | '\\' :: _ :: cs => ((quotedLength cs).1 + 2, (quotedLength cs).2)
  | _ :: cs => ((quotedLength cs).1 + 1, (quotedLength cs).2)
  | [] => (0, false)

/-- How far a block comment goes on after its opening sign; nothing when it is never closed. -/
def commentLength? : List Char → Option Nat
  | '*' :: '/' :: _ => some 2
  | _ :: cs => (commentLength? cs).map (· + 1)
  | [] => none

/-- A piece of a text: its characters, and its kind if it is a token. -/
structure Piece where
  kind : Option TokenKind
  text : List Char
deriving Repr, DecidableEq

/-- The kind of the piece that starts with `c`, and how many of the characters `cs` after it
belong to it. -/
def Piece.measure (c : Char) (cs : List Char) : Option TokenKind × Nat :=
  match c with
  | '{' => (some .openBrace, 0)
  | '}' => (some .closeBrace, 0)
  | '(' => (some .openParen, 0)
  | ')' => (some .closeParen, 0)
  | ',' => (some .comma, 0)
  | '.' => (some .dot, 0)
  | '=' => (some .equals, 0)
  | '\n' => (some .newline, 0)
  | '"' => (some (if (quotedLength cs).2 then .quoted else .invalid), (quotedLength cs).1)
  | '/' =>
    match cs with
    | '/' :: _ => (none, runLength (· != '\n') cs)
    | '*' :: body =>
      match commentLength? body with
      | some n => (none, n + 1)
      | none => (some .invalid, cs.length)
    | _ => (some .invalid, 0)
  | '#' =>
    match cs with
    | d :: _ =>
      if d == ' ' || d == '\t' then (none, runLength (· != '\n') cs)
      else if d.isAlphanum then (some .hex, runLength Char.isAlphanum cs)
      else (some .invalid, 0)
    | [] => (some .invalid, 0)
  | '-' =>
    match cs with
    | d :: _ => if d.isDigit then (some .number, numberLength cs) else (some .invalid, 0)
    | [] => (some .invalid, 0)
  | _ =>
    if isGap c then (none, runLength isGap cs)
    else if c.isDigit then (some .number, numberLength (c :: cs) - 1)
    else if isNameStart c then (some .ident, runLength isNameRest cs)
    else (some .invalid, 0)

/-- The pieces of a text, in order. -/
def pieces : List Char → List Piece
  | [] => []
  | c :: cs =>
    ⟨(Piece.measure c cs).1, c :: cs.take (Piece.measure c cs).2⟩ ::
      pieces (cs.drop (Piece.measure c cs).2)
termination_by cs => cs.length
decreasing_by simp only [List.length_cons, List.length_drop]; omega

/-- The tokens among pieces that start at byte `offset`. -/
def locate : Nat → List Piece → List Token
  | _, [] => []
  | offset, p :: ps =>
    let stop := offset + byteLength p.text
    match p.kind with
    | some kind => ⟨kind, String.ofList p.text, ⟨offset, stop⟩⟩ :: locate stop ps
    | none => locate stop ps

/-- The tokens of a source, closed by one `endOfFile` at its end. -/
def tokenize (source : String) : List Token :=
  locate 0 (pieces source.toList) ++
    [⟨.endOfFile, "", Span.point (byteLength source.toList)⟩]

theorem flatten_pieces (cs : List Char) : ((pieces cs).map Piece.text).flatten = cs := by
  fun_induction pieces cs with
  | case1 => rfl
  | case2 c cs ih => simp [ih]

theorem text_ne_nil_of_mem_pieces {cs : List Char} {p : Piece} (h : p ∈ pieces cs) :
    p.text ≠ [] := by
  fun_induction pieces cs with
  | case1 => simp at h
  | case2 c cs ih =>
    rcases List.mem_cons.1 h with rfl | h
    · simp
    · exact ih h

end ColorTheme
