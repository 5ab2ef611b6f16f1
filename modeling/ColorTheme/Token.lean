import ColorTheme.Text.Span

/-!
# Tokens

The vocabulary of a theme document: braces, parentheses, the signs `,` `.` `=`, line ends,
names, numbers, quoted strings and `#` literals.  Line ends are tokens because they end an
attribute; other blanks and comments are not.
-/

set_option autoImplicit false

namespace ColorTheme

/-- The kinds of token.  `invalid` is text that starts no token, `endOfFile` closes every list
of tokens. -/
inductive TokenKind
  | openBrace
  | closeBrace
  | openParen
  | closeParen
  | comma
  | dot
  | equals
  | newline
  | ident
  | number
  | quoted
  | hex
  | invalid
  | endOfFile
deriving Repr, DecidableEq, Inhabited

/-- What a message calls a token of this kind. -/
def TokenKind.describe : TokenKind → String
  | .openBrace => "`\x7b`"
  | .closeBrace => "`\x7d`"
  | .openParen => "`(`"
  | .closeParen => "`)`"
  | .comma => "`,`"
  | .dot => "`.`"
  | .equals => "`=`"
  | .newline => "end of line"
  | .ident => "identifier"
  | .number => "number"
  | .quoted => "string"
  | .hex => "hex color"
  | .invalid => "invalid character"
  | .endOfFile => "end of file"

/-- A token, its text and where it stands. -/
structure Token where
  kind : TokenKind
  text : String
  span : Span
deriving Repr, DecidableEq, Inhabited

end ColorTheme
