import ColorTheme.Expr
import ColorTheme.Flaw

/-!
# Reading an expression from tokens

A reader answers with an expression or the one flaw that stopped it, and in both cases with the
number of tokens it has read; reading goes on behind them.

* `readExpr` reads one expression: a literal, a path or a call.
* Inside the parentheses of a call line ends do not count, and the last argument may be followed
  by a comma.
* `true` and `false` are truth values unless a dot or a parenthesis makes them a path or a call.
-/

set_option autoImplicit false

namespace ColorTheme

/-- The text of a string without its escapes: `\n` and `\t` are a line end and a tab, any other
character after a backslash is that character. -/
def unescape : List Char → List Char
  | '\\' :: 'n' :: cs => '\n' :: unescape cs
  | '\\' :: 't' :: cs => '\t' :: unescape cs
  | '\\' :: c :: cs => c :: unescape cs
  | c :: cs => c :: unescape cs
  | [] => []

theorem unescape_cons {c : Char} (h : c ≠ '\\') (cs : List Char) :
    unescape (c :: cs) = c :: unescape cs :=
  unescape.eq_4 c cs (fun _ hc => absurd hc h) (fun _ hc => absurd hc h)
    (fun _ _ hc => absurd hc h)

/-- The value of a quoted literal: what stands between its quotes, without escapes. -/
def quotedValue (text : String) : String :=
  String.ofList (unescape text.toList.tail.dropLast)

/-- The value of a run of decimal digits. -/
def digitsValue (cs : List Char) : Nat :=
  cs.foldl (fun n c => 10 * n + (c.toNat - '0'.toNat)) 0

/-- The value of a number literal: the floating-point number nearest to the decimal. -/
def numberValue (text : String) : Float :=
  let (negative, unsigned) := match text.toList with
    | '-' :: cs => (true, cs)
    | cs => (false, cs)
  let whole := unsigned.takeWhile (· != '.')
  let fraction := (unsigned.dropWhile (· != '.')).drop 1
  let magnitude := Float.ofScientific (digitsValue (whole ++ fraction)) true fraction.length
  if negative then -magnitude else magnitude

/-- The identifier that a token is. -/
def Ident.ofToken (t : Token) : Ident := ⟨t.text, t.span⟩

/-- The number of line ends at the head of `ts`. -/
def newlineCount (ts : List Token) : Nat := (ts.takeWhile (·.kind == .newline)).length

/-- What a reader answers: a value or the flaw that stopped it, and how many tokens it read. -/
abbrev ReadResult (α : Type) := Except Flaw α × Nat

/-- Reads the segments of a path behind its root: pairs of a dot and a name. -/
def readSegments : List Token → ReadResult (List Ident)
  | [] => (.ok [], 0)
  | dot :: ts =>
    if dot.kind = .dot then
      match ts with
      | [] => (.error ⟨.nameAfterDot, dot.span⟩, 1)
      | name :: rest =>
        if name.kind = .ident then
          match readSegments rest with
          | (.ok segments, n) => (.ok (Ident.ofToken name :: segments), n + 2)
          | (.error flaw, n) => (.error flaw, n + 2)
        else (.error ⟨.nameAfterDot, dot.span⟩, 1)
    else (.ok [], 0)

/-- The path with the given root and segments. -/
def Expr.ofSegments (root : Ident) (segments : List Ident) : Expr :=
  .path root segments (root.span.merge (segments.getLastD root).span)

mutual

/-- Reads one expression. -/
def readExpr : List Token → ReadResult Expr
  | [] => (.error (.unexpected .expression []), 0)
  | t :: ts =>
    match t.kind with
    | .quoted => (.ok (.quoted (quotedValue t.text) t.span), 1)
    | .hex => (.ok (.hex t.text t.span), 1)
    | .number => (.ok (.number (numberValue t.text) t.span), 1)
    | .ident =>
      if (Token.current ts).kind = .openParen then
        match readArgs (ts.drop 1) with
        | (.ok (args, close), n) =>
          (.ok (.call (Ident.ofToken t) args (t.span.merge close)), n + 2)
        | (.error flaw, n) => (.error flaw, n + 2)
      else if (t.text = "true" ∨ t.text = "false") ∧ (Token.current ts).kind ≠ .dot then
        (.ok (.truth (t.text == "true") t.span), 1)
      else
        match readSegments ts with
        | (.ok segments, n) => (.ok (.ofSegments (Ident.ofToken t) segments), n + 1)
        | (.error flaw, n) => (.error flaw, n + 1)
    | _ => (.error (.unexpected .expression (t :: ts)), 0)
termination_by ts => 2 * ts.length
decreasing_by simp; omega

/-- Reads the arguments of a call, from behind its opening parenthesis through the closing one,
whose place it answers too. -/
def readArgs : List Token → ReadResult (List Expr × Span)
  | [] => (.error (.unexpected .expression []), 0)
  | t :: ts =>
    if t.kind = .newline then
      let (result, n) := readArgs ts
      (result, n + 1)
    else if t.kind = .closeParen then (.ok ([], t.span), 1)
    else
      match readExpr (t :: ts) with
      | (.error flaw, n) => (.error flaw, n)
      | (.ok arg, n) =>
        let read := n + newlineCount ((t :: ts).drop n)
        let next := Token.current ((t :: ts).drop read)
        if next.kind = .comma then
          match readArgs ((t :: ts).drop (read + 1)) with
          | (.ok (args, close), m) => (.ok (arg :: args, close), read + 1 + m)
          | (.error flaw, m) => (.error flaw, read + 1 + m)
        else if next.kind = .closeParen then (.ok ([arg], next.span), read + 1)
        else (.error (.unexpected .commaOrParen ((t :: ts).drop read)), read)
termination_by ts => 2 * ts.length + 1
decreasing_by all_goals (simp; try omega)

end

end ColorTheme
