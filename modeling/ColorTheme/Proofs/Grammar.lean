import ColorTheme.Item.Reading

/-!
# The grammar of a document

The grammar as relations on token lists, said without the reader.  Each relation ties the list
at which a phrase begins to the tree of the phrase and to the list behind it.

* `body := (NEWLINE | block | attribute)*`, where each attribute ends its line, and
  `block := IDENT { body }`, `attribute := IDENT = expr` : `IsBody`.
* `expr := STR | HEX | NUMBER | call | path`, `path := IDENT (. IDENT)*` and the words `true` and
  `false`, which are truth values where no dot and no parenthesis follows : `IsExpr`.
* `call := IDENT ( NEWLINE* [expr NEWLINE* (, NEWLINE* expr NEWLINE*)* [, NEWLINE*]] )` :
  `IsArgs` and `IsMoreArgs`.
* `IsDocument` : a body in front of the end of the file.
-/

set_option autoImplicit false

namespace ColorTheme.Grammar

/-- `NEWLINE*` -/
inductive IsNewlines : List Token → List Token → Prop
  | none (ts : List Token) : IsNewlines ts ts
  | more {t : Token} {ts rest : List Token} (kind : t.kind = .newline)
      (others : IsNewlines ts rest) : IsNewlines (t :: ts) rest

/-- `(. IDENT)*` -/
inductive IsSegments : List Token → List Ident → List Token → Prop
  | none (ts : List Token) : IsSegments ts [] ts
  | more {dot name : Token} {ts rest : List Token} {segments : List Ident}
      (dotKind : dot.kind = .dot) (nameKind : name.kind = .ident)
      (others : IsSegments ts segments rest) :
      IsSegments (dot :: name :: ts) (Ident.ofToken name :: segments) rest

/-- The name that begins `t :: ts` is read as a truth value. -/
def IsTruth (t : Token) (ts : List Token) : Prop :=
  (t.text = "true" ∨ t.text = "false") ∧
    (Token.current ts).kind ≠ .openParen ∧ (Token.current ts).kind ≠ .dot

mutual

/-- `expr`, with the tree that it stands for. -/
inductive IsExpr : List Token → Expr → List Token → Prop
  | quoted {t : Token} (ts : List Token) (kind : t.kind = .quoted) :
      IsExpr (t :: ts) (.quoted (quotedValue t.text) t.span) ts
  | hex {t : Token} (ts : List Token) (kind : t.kind = .hex) :
      IsExpr (t :: ts) (.hex t.text t.span) ts
  | number {t : Token} (ts : List Token) (kind : t.kind = .number) :
      IsExpr (t :: ts) (.number (numberValue t.text) t.span) ts
  | truth {t : Token} {ts : List Token} (kind : t.kind = .ident) (word : IsTruth t ts) :
      IsExpr (t :: ts) (.truth (t.text == "true") t.span) ts
  | path {t : Token} {ts rest : List Token} {segments : List Ident} (kind : t.kind = .ident)
      (word : ¬ IsTruth t ts) (others : IsSegments ts segments rest) :
      IsExpr (t :: ts) (.ofSegments (Ident.ofToken t) segments) rest
  | call {name paren : Token} {ts rest : List Token} {args : List Expr} {close : Span}
      (nameKind : name.kind = .ident) (parenKind : paren.kind = .openParen)
      (inner : IsArgs ts args close rest) :
      IsExpr (name :: paren :: ts) (.call (Ident.ofToken name) args (name.span.merge close)) rest

/-- What stands between the parentheses of a call, with the closing one and its place. -/
inductive IsArgs : List Token → List Expr → Span → List Token → Prop
  | none {ts rest : List Token} {close : Token} (lines : IsNewlines ts (close :: rest))
      (kind : close.kind = .closeParen) : IsArgs ts [] close.span rest
  | some {ts start next others rest : List Token} {arg : Expr} {args : List Expr} {close : Span}
      (before : IsNewlines ts start) (first : IsExpr start arg next)
      (behind : IsNewlines next others) (more : IsMoreArgs others args close rest) :
      IsArgs ts (arg :: args) close rest

/-- What stands behind an argument: the closing parenthesis, one after a comma, or another
argument after a comma. -/
inductive IsMoreArgs : List Token → List Expr → Span → List Token → Prop
  | close {t : Token} (rest : List Token) (kind : t.kind = .closeParen) :
      IsMoreArgs (t :: rest) [] t.span rest
  | trailing {comma close : Token} {ts rest : List Token} (commaKind : comma.kind = .comma)
      (lines : IsNewlines ts (close :: rest)) (kind : close.kind = .closeParen) :
      IsMoreArgs (comma :: ts) [] close.span rest
  | more {comma : Token} {ts start next others rest : List Token} {arg : Expr}
      {args : List Expr} {close : Span} (commaKind : comma.kind = .comma)
      (before : IsNewlines ts start) (first : IsExpr start arg next)
      (behind : IsNewlines next others) (more : IsMoreArgs others args close rest) :
      IsMoreArgs (comma :: ts) (arg :: args) close rest

end

/-- What may stand behind an attribute: a line end, a closing brace or the end of the file. -/
def EndsLine (ts : List Token) : Prop :=
  (Token.current ts).kind = .newline ∨ (Token.current ts).kind = .closeBrace ∨
    (Token.current ts).kind = .endOfFile

/-- `body`, with its items. -/
inductive IsBody : List Token → Body → List Token → Prop
  | none (ts : List Token) : IsBody ts [] ts
  | newline {t : Token} {ts rest : List Token} {items : Body} (kind : t.kind = .newline)
      (others : IsBody ts items rest) : IsBody (t :: ts) items rest
  | assignment {name sign : Token} {ts next rest : List Token} {value : Expr} {items : Body}
      (nameKind : name.kind = .ident) (signKind : sign.kind = .equals)
      (expr : IsExpr ts value next) (line : EndsLine next) (others : IsBody next items rest) :
      IsBody (name :: sign :: ts)
        (.assignment ⟨Ident.ofToken name, value, name.span.merge value.span⟩ :: items) rest
  | block {name brace close : Token} {ts next rest : List Token} {inner items : Body}
      (nameKind : name.kind = .ident) (braceKind : brace.kind = .openBrace)
      (body : IsBody ts inner (close :: next)) (closeKind : close.kind = .closeBrace)
      (others : IsBody next items rest) :
      IsBody (name :: brace :: ts)
        (.block (Ident.ofToken name) inner (name.span.merge close.span) :: items) rest

/-- The tokens of a whole document, with its items. -/
def IsDocument (ts : List Token) (items : Body) : Prop :=
  ∃ stop : Token, stop.kind = .endOfFile ∧ IsBody ts items [stop]

end ColorTheme.Grammar
