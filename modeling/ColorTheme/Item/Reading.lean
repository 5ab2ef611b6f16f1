import ColorTheme.Expr.Reading
import ColorTheme.Item
import ColorTheme.Token.Lexer

/-!
# Reading a document from tokens

Reading never gives up.  A flaw costs at most the rest of its line: the reader goes on at the
next line end or closing brace.  So there are always items to work with, beside the flaws.

* `readBody` reads the items of a document or of a block.
* `Body.read` reads a source.
-/

set_option autoImplicit false

namespace ColorTheme

/-- Items read, the flaws met on the way, and how many tokens were read. -/
structure Reading where
  items : Body
  flaws : List Flaw
  used : Nat
deriving Repr

/-- The reading that begins with the given items, flaws and tokens and goes on with `rest`. -/
def Reading.after (items : Body) (flaws : List Flaw) (used : Nat) (rest : Reading) : Reading :=
  ⟨items ++ rest.items, flaws ++ rest.flaws, used + rest.used⟩

@[simp] theorem Reading.items_after (items : Body) (flaws : List Flaw) (used : Nat)
    (rest : Reading) : (Reading.after items flaws used rest).items = items ++ rest.items := rfl

@[simp] theorem Reading.flaws_after (items : Body) (flaws : List Flaw) (used : Nat)
    (rest : Reading) : (Reading.after items flaws used rest).flaws = flaws ++ rest.flaws := rfl

@[simp] theorem Reading.used_after (items : Body) (flaws : List Flaw) (used : Nat)
    (rest : Reading) : (Reading.after items flaws used rest).used = used + rest.used := rfl

/-- Tokens that may stand behind an attribute. -/
def TokenKind.endsLine (kind : TokenKind) : Bool :=
  kind == .newline || kind == .closeBrace || kind == .endOfFile

/-- The number of tokens up to the next one that may stand behind an attribute. -/
def lineLength (ts : List Token) : Nat := (ts.takeWhile (!·.kind.endsLine)).length

/-- Reads the value of the attribute `name`, from behind its `=`.  An attribute with something
left over on its line is kept; without a readable value there is none. -/
def readAttribute (name : Ident) (ts : List Token) : Reading :=
  if (Token.current ts).kind.endsLine then
    ⟨[], [⟨.missingValue name.name, (Token.current ts).span⟩], 0⟩
  else
    match readExpr ts with
    | (.error flaw, n) => ⟨[], [flaw], n + lineLength (ts.drop n)⟩
    | (.ok value, n) =>
      let item := Item.assignment ⟨name, value, name.span.merge value.span⟩
      if (Token.current (ts.drop n)).kind.endsLine then ⟨[item], [], n⟩
      else ⟨[item], [.unexpected .lineEnd (ts.drop n)], n + lineLength (ts.drop n)⟩

theorem length_drop_lt_cons (t : Token) (ts : List Token) (n : Nat) :
    (ts.drop n).length < (t :: ts).length := by
  rw [List.length_drop, List.length_cons]
  omega

/-- Reads the items of a body: of a block, up to its closing brace, if `nested`, and else of a
document, up to its end.  `last` is the place of the last token of the document, where a block
that is never closed ends. -/
def readBody (nested : Bool) (last : Span) : List Token → Reading
  | [] => ⟨[], [], 0⟩
  | t :: ts =>
    match t.kind with
    | .endOfFile => ⟨[], [], 0⟩
    | .newline => .after [] [] 1 (readBody nested last ts)
    | .closeBrace =>
      if nested then ⟨[], [], 0⟩
      else .after [] [⟨.unmatchedBrace, t.span⟩] 1 (readBody nested last ts)
    | .ident =>
      let name := Ident.ofToken t
      match (Token.current ts).kind with
      | .equals =>
        let value := readAttribute name (ts.drop 1)
        .after value.items value.flaws (2 + value.used)
          (readBody nested last (ts.drop (1 + value.used)))
      | .openBrace =>
        let inner := readBody true last (ts.drop 1)
        let close := Token.current (ts.drop (1 + inner.used))
        if close.kind = .closeBrace then
          .after [.block name inner.items (name.span.merge close.span)] inner.flaws
            (3 + inner.used) (readBody nested last (ts.drop (2 + inner.used)))
        else
          .after [.block name inner.items (name.span.merge last)]
            (inner.flaws ++ [⟨.unclosedBlock name.name, (Token.current ts).span⟩])
            (2 + inner.used) (readBody nested last (ts.drop (1 + inner.used)))
      | _ =>
        .after [] [.unexpected (.signAfter name.name) ts] (1 + lineLength ts)
          (readBody nested last (ts.drop (lineLength ts)))
    | _ =>
      .after [] [.unexpected .item (t :: ts)] (1 + lineLength ts)
        (readBody nested last (ts.drop (lineLength ts)))
termination_by ts => ts.length
decreasing_by all_goals first | exact Nat.lt_succ_self _ | exact length_drop_lt_cons _ _ _

/-! ## One step of the reader -/

section

variable {nested : Bool} {last : Span} {t : Token} {ts : List Token}

theorem readBody_of_endOfFile (h : t.kind = .endOfFile) :
    readBody nested last (t :: ts) = ⟨[], [], 0⟩ := by
  rw [readBody]; simp only [h]

theorem readBody_of_newline (h : t.kind = .newline) :
    readBody nested last (t :: ts) = .after [] [] 1 (readBody nested last ts) := by
  rw [readBody]; simp only [h]

theorem readBody_true_of_closeBrace (h : t.kind = .closeBrace) :
    readBody true last (t :: ts) = ⟨[], [], 0⟩ := by
  rw [readBody]; simp only [h, if_true]

theorem readBody_false_of_closeBrace (h : t.kind = .closeBrace) :
    readBody false last (t :: ts) =
      .after [] [⟨.unmatchedBrace, t.span⟩] 1 (readBody false last ts) := by
  rw [readBody]; simp only [h]; rfl

theorem readBody_of_equals (h : t.kind = .ident) (hsign : (Token.current ts).kind = .equals) :
    readBody nested last (t :: ts) =
      .after (readAttribute (.ofToken t) (ts.drop 1)).items
        (readAttribute (.ofToken t) (ts.drop 1)).flaws
        (2 + (readAttribute (.ofToken t) (ts.drop 1)).used)
        (readBody nested last (ts.drop (1 + (readAttribute (.ofToken t) (ts.drop 1)).used))) := by
  rw [readBody]; simp only [h, hsign]

theorem readBody_of_closed (h : t.kind = .ident) (hbrace : (Token.current ts).kind = .openBrace)
    (hclose : (Token.current
      (ts.drop (1 + (readBody true last (ts.drop 1)).used))).kind = .closeBrace) :
    readBody nested last (t :: ts) =
      .after
        [.block (.ofToken t) (readBody true last (ts.drop 1)).items (t.span.merge
          (Token.current (ts.drop (1 + (readBody true last (ts.drop 1)).used))).span)]
        (readBody true last (ts.drop 1)).flaws (3 + (readBody true last (ts.drop 1)).used)
        (readBody nested last (ts.drop (2 + (readBody true last (ts.drop 1)).used))) := by
  rw [readBody]; simp only [h, hbrace]; rw [if_pos hclose]; rfl

theorem readBody_of_unclosed (h : t.kind = .ident) (hbrace : (Token.current ts).kind = .openBrace)
    (hclose : (Token.current
      (ts.drop (1 + (readBody true last (ts.drop 1)).used))).kind ≠ .closeBrace) :
    readBody nested last (t :: ts) =
      .after [.block (.ofToken t) (readBody true last (ts.drop 1)).items (t.span.merge last)]
        ((readBody true last (ts.drop 1)).flaws ++
          [⟨.unclosedBlock t.text, (Token.current ts).span⟩])
        (2 + (readBody true last (ts.drop 1)).used)
        (readBody nested last (ts.drop (1 + (readBody true last (ts.drop 1)).used))) := by
  rw [readBody]; simp only [h, hbrace]; rw [if_neg hclose]; rfl

theorem readBody_of_noSign (h : t.kind = .ident) (hequals : (Token.current ts).kind ≠ .equals)
    (hbrace : (Token.current ts).kind ≠ .openBrace) :
    readBody nested last (t :: ts) =
      .after [] [.unexpected (.signAfter t.text) ts] (1 + lineLength ts)
        (readBody nested last (ts.drop (lineLength ts))) := by
  rw [readBody]; simp only [h]; rfl

theorem readBody_of_noItem (hend : t.kind ≠ .endOfFile) (hline : t.kind ≠ .newline)
    (hclose : t.kind ≠ .closeBrace) (hname : t.kind ≠ .ident) :
    readBody nested last (t :: ts) =
      .after [] [.unexpected .item (t :: ts)] (1 + lineLength ts)
        (readBody nested last (ts.drop (lineLength ts))) := by
  rw [readBody]; split <;> first | contradiction | rfl

end

/-- The place of the last token before the end of the file. -/
def lastSpan (ts : List Token) : Span :=
  (ts.dropLast.getLast?.map Token.span).getD (Span.point 0)

/-- The items of a source and its flaws. -/
def Body.read (source : String) : Reading :=
  readBody false (lastSpan (tokenize source)) (tokenize source)

end ColorTheme
