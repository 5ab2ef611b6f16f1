import ColorTheme.Token

/-!
# Flaws in the wording of a document

Why a document does not follow the grammar.  A flaw never stops the reading: it is noted, the
rest of its line is left out, and reading goes on.
-/

set_option autoImplicit false

namespace ColorTheme

/-- What the grammar asks for at the place of a flaw. -/
inductive Expectation
  | item
  | signAfter (name : String)
  | lineEnd
  | expression
  | commaOrParen
deriving Repr, DecidableEq

/-- What a message calls the thing expected. -/
def Expectation.describe : Expectation → String
  | .item => "attribute or block"
  | .signAfter name => "`=` or `\x7b` after `" ++ name ++ "`"
  | .lineEnd => "end of line after attribute value"
  | .expression => "expression"
  | .commaOrParen => "`,` or `)`"

/-- What stands at the place of a flaw. -/
inductive Found
  | token (kind : TokenKind)
  | text (shown : String)
  | openComment
deriving Repr, DecidableEq

/-- How a message shows a token: by its kind, or by its text if it is no valid token. -/
def Found.ofToken (t : Token) : Found :=
  if t.kind = .invalid then
    match t.text.toList with
    | '/' :: '*' :: _ => .openComment
    | _ => .text t.text
  else .token t.kind

/-- What a message calls the thing found. -/
def Found.describe : Found → String
  | .token kind => kind.describe
  | .text shown => "`" ++ shown ++ "`"
  | .openComment => "unterminated block comment"

/-- The ways in which a document departs from the grammar. -/
inductive FlawKind
  | unexpected (expected : Expectation) (found : Found)
  | unmatchedBrace
  | unclosedBlock (name : String)
  | nameAfterDot
  | missingValue (name : String)
deriving Repr, DecidableEq

/-- The code of a flaw in reports. -/
def FlawKind.code : FlawKind → String
  | .unexpected _ (.token _) => "E0001"
  | .unexpected _ (.text _) => "E0006"
  | .unexpected _ .openComment => "E0006"
  | .unmatchedBrace => "E0002"
  | .unclosedBlock _ => "E0003"
  | .nameAfterDot => "E0004"
  | .missingValue _ => "E0005"

/-- The wording of a flaw in reports. -/
def FlawKind.message : FlawKind → String
  | .unexpected expected found =>
    "expected " ++ expected.describe ++ ", found " ++ found.describe
  | .unmatchedBrace => "unmatched `\x7d`"
  | .unclosedBlock name => "unclosed block `" ++ name ++ "`"
  | .nameAfterDot => "invalid attribute name: expected identifier after dot"
  | .missingValue name => "expected a value for `" ++ name ++ "`"

/-- A flaw and where it stands. -/
structure Flaw where
  kind : FlawKind
  span : Span
deriving Repr, DecidableEq

/-- The token at the head of a list; a list that has run out counts as the end of a file. -/
def Token.current (ts : List Token) : Token :=
  ts.headD ⟨.endOfFile, "", Span.point 0⟩

@[simp] theorem Token.current_cons (t : Token) (ts : List Token) :
    Token.current (t :: ts) = t := rfl

/-- The flaw that something else was expected where `ts` begin. -/
def Flaw.unexpected (expected : Expectation) (ts : List Token) : Flaw :=
  ⟨.unexpected expected (.ofToken (Token.current ts)), (Token.current ts).span⟩

end ColorTheme
