import ColorTheme.Item.Reading
import ColorTheme.Proofs.Color
import Mathlib.Order.MinMax

/-!
# Documents that differ in places and colors

A `Retouch` keeps the tokens of a document: it moves their places, in order, and gives the color
literals at some places another color, in the quotes they had.

* `Retouch.token`, `Retouch.expr`, `Retouch.items`, `Retouch.flaw` : what becomes of the parts of a
  document.
* `Retouch.readExpr_map`, `Retouch.readBody_map` : what is read from the retouched tokens is what was
  read, retouched.
-/

set_option autoImplicit false

namespace ColorTheme

/-- A change of places, and of color literals.  A literal that stands where `paint` has a color is
given this color. -/
structure Retouch where
  move : Nat → Nat
  paint : Span → Option Color
  mono : Monotone move
  zero : move 0 = 0

namespace Retouch

variable (r : Retouch)

/-- The place where a span is moved to. -/
def span (s : Span) : Span := ⟨r.move s.start, r.move s.stop⟩

/-- The color that is given to a literal; one that is no color is given none. -/
def paint? (s : Span) (value : String) : Option Color :=
  (Color.ofHex? value).bind fun _ => r.paint s

/-- The value of a literal. -/
def value (s : Span) (value : String) : String :=
  match r.paint? s value with
  | some c => c.hex
  | none => value

/-- The text of a token. -/
def text (t : Token) : String :=
  match t.kind with
  | .quoted =>
    match r.paint? t.span (quotedValue t.text) with
    | some c => "\"" ++ c.hex ++ "\""
    | none => t.text
  | .hex => r.value t.span t.text
  | _ => t.text

/-- A token. -/
def token (t : Token) : Token := ⟨t.kind, r.text t, r.span t.span⟩

/-- A name. -/
def ident (i : Ident) : Ident := ⟨i.name, r.span i.span⟩

mutual

/-- An expression. -/
def expr : Expr → Expr
  | .quoted text s => .quoted (r.value s text) (r.span s)
  | .hex text s => .hex (r.value s text) (r.span s)
  | .number value s => .number value (r.span s)
  | .truth value s => .truth value (r.span s)
  | .path root rest s => .path (r.ident root) (rest.map r.ident) (r.span s)
  | .call name args s => .call (r.ident name) (exprs args) (r.span s)

/-- The arguments of a call. -/
def exprs : List Expr → List Expr
  | [] => []
  | e :: es => expr e :: exprs es

end

/-- An attribute. -/
def assignment (a : Attribute) : Attribute := ⟨r.ident a.name, r.expr a.value, r.span a.span⟩

mutual

/-- An item. -/
def item : Item → Item
  | .assignment a => .assignment (r.assignment a)
  | .block kind body s => .block (r.ident kind) (items body) (r.span s)

/-- The items of a body. -/
def items : List Item → List Item
  | [] => []
  | i :: is => item i :: items is

end

/-- A block. -/
def block (b : Block) : Block := ⟨r.ident b.kind, r.items b.body, r.span b.span⟩

/-- A flaw. -/
def flaw (f : Flaw) : Flaw := ⟨f.kind, r.span f.span⟩

/-- What a reader answers. -/
def result {α : Type} (change : α → α) : ReadResult α → ReadResult α
  | (.ok a, n) => (.ok (change a), n)
  | (.error f, n) => (.error (r.flaw f), n)

/-- The reading of a body. -/
def reading (x : Reading) : Reading := ⟨r.items x.items, x.flaws.map r.flaw, x.used⟩

/-! ## Places -/

theorem span_merge (s t : Span) : r.span (s.merge t) = (r.span s).merge (r.span t) := by
  simp only [span, Span.merge, r.mono.map_min, r.mono.map_max]

theorem span_point_zero : r.span (.point 0) = .point 0 := by
  simp only [span, Span.point, r.zero]

/-- Where nothing is painted a literal keeps its value. -/
theorem value_of_none {s : Span} (h : r.paint s = none) (value : String) :
    r.value s value = value := by
  unfold Retouch.value paint?
  rw [h]
  cases Color.ofHex? value <;> rfl

theorem items_eq_map (is : List Item) : r.items is = is.map r.item := by
  induction is with
  | nil => rfl
  | cons i is ih => rw [items, ih, List.map_cons]

theorem items_append (is js : List Item) : r.items (is ++ js) = r.items is ++ r.items js := by
  rw [items_eq_map, items_eq_map, items_eq_map, List.map_append]

theorem span_expr (e : Expr) : (r.expr e).span = r.span e.span := by
  cases e <;> rw [expr] <;> rfl

/-! ## Tokens -/

variable (t : Token) (ts : List Token)

/-- Where nothing is painted a token keeps its text. -/
theorem token_of_none {t : Token} (h : r.paint t.span = none) :
    r.token t = ⟨t.kind, t.text, r.span t.span⟩ := by
  have hnone : r.paint? t.span (quotedValue t.text) = none := by
    rw [paint?, h]
    cases Color.ofHex? (quotedValue t.text) <;> rfl
  have htext : r.text t = t.text := by
    unfold text
    rw [hnone, r.value_of_none h]
    cases t.kind <;> rfl
  rw [token, htext]

@[simp] theorem kind_token : (r.token t).kind = t.kind := rfl

@[simp] theorem span_token : (r.token t).span = r.span t.span := rfl

theorem text_of_ne {t : Token} (hquoted : t.kind ≠ .quoted) (hhex : t.kind ≠ .hex) :
    (r.token t).text = t.text := by
  show r.text t = t.text
  unfold text
  split
  · rename_i h
    exact absurd h hquoted
  · rename_i h
    exact absurd h hhex
  · rfl

end Retouch

/-- The digits of a color are letters and digits. -/
theorem isAlphanum_of_mem_hexDigits {c : Color} {d : Char} (h : d ∈ c.hexDigits) :
    d.isAlphanum = true := by
  have hall : ∀ k < 103, IsHexDigit (Char.ofNat k) → (Char.ofNat k).isAlphanum = true := by decide
  have hdigit := Color.isHexDigit_of_mem_hexDigits h
  obtain ⟨k, hk, rfl⟩ := hdigit.exists_code
  exact hall k hk hdigit

/-- Without a backslash there is nothing to unescape. -/
theorem unescape_of_notMem {cs : List Char} (h : '\\' ∉ cs) : unescape cs = cs := by
  induction cs with
  | nil => rfl
  | cons c cs ih =>
    rw [List.mem_cons, not_or] at h
    rw [unescape_cons (Ne.symm h.1), ih h.2]

/-- A color in quotes is read as its text. -/
theorem quotedValue_hex (c : Color) : quotedValue ("\"" ++ c.hex ++ "\"") = c.hex := by
  have hescape : '\\' ∉ '#' :: c.hexDigits := by
    intro h
    rcases List.mem_cons.1 h with h | h
    · cases h
    · cases isAlphanum_of_mem_hexDigits h
  have hinside : ("\"" ++ c.hex ++ "\"").toList.tail.dropLast = '#' :: c.hexDigits := by
    simp only [String.toList_append, Color.hex, String.toList_ofList]
    show (('#' :: c.hexDigits) ++ ['"']).dropLast = _
    exact List.dropLast_concat
  rw [quotedValue, hinside, unescape_of_notMem hescape]
  rfl

namespace Retouch

variable (r : Retouch) (t : Token) (ts : List Token)

/-- A quoted literal has the value that its text is read as. -/
theorem quotedValue_text {t : Token} (h : t.kind = .quoted) :
    quotedValue (r.token t).text = r.value t.span (quotedValue t.text) := by
  show quotedValue (r.text t) = _
  unfold text value
  simp only [h]
  cases r.paint? t.span (quotedValue t.text) with
  | none => rfl
  | some c => exact quotedValue_hex c

theorem text_of_hex {t : Token} (h : t.kind = .hex) :
    (r.token t).text = r.value t.span t.text := by
  show r.text t = _
  unfold text
  simp only [h]

theorem ident_ofToken {t : Token} (h : t.kind = .ident) :
    Ident.ofToken (r.token t) = r.ident (.ofToken t) := by
  rw [Ident.ofToken, r.text_of_ne (by rw [h]; decide) (by rw [h]; decide)]
  rfl

theorem current_map : Token.current (ts.map r.token) = r.token (Token.current ts) := by
  cases ts with
  | nil =>
    show (⟨.endOfFile, "", .point 0⟩ : Token) = ⟨.endOfFile, "", r.span (.point 0)⟩
    rw [r.span_point_zero]
  | cons t ts => rfl

theorem found_ofToken : Found.ofToken (r.token t) = Found.ofToken t := by
  unfold Found.ofToken
  rw [r.kind_token]
  by_cases h : t.kind = .invalid
  · rw [if_pos h, if_pos h, r.text_of_ne (by rw [h]; decide) (by rw [h]; decide)]
  · rw [if_neg h, if_neg h]

theorem unexpected_map (expected : Expectation) :
    Flaw.unexpected expected (ts.map r.token) = r.flaw (.unexpected expected ts) := by
  rw [Flaw.unexpected, r.current_map, r.found_ofToken]
  rfl

theorem newlineCount_map : newlineCount (ts.map r.token) = newlineCount ts := by
  rw [newlineCount, newlineCount, List.takeWhile_map, List.length_map]
  rfl

theorem lineLength_map : lineLength (ts.map r.token) = lineLength ts := by
  rw [lineLength, lineLength, List.takeWhile_map, List.length_map]
  rfl

theorem lastSpan_map : lastSpan (ts.map r.token) = r.span (lastSpan ts) := by
  rw [lastSpan, lastSpan, ← List.map_dropLast, List.getLast?_map]
  cases ts.dropLast.getLast? with
  | none => exact r.span_point_zero.symm
  | some t => rfl

/-! ## Expressions -/

theorem readSegments_map :
    readSegments (ts.map r.token) = r.result (List.map r.ident) (readSegments ts) := by
  fun_induction readSegments ts with
  | case1 => rfl
  | case2 dot hdot =>
    rw [List.map_singleton, readSegments, if_pos (by exact hdot)]
    rfl
  | case3 dot hdot name rest hname segments n heq ih =>
    rw [List.map_cons, List.map_cons, readSegments, if_pos (by exact hdot)]
    rw [if_pos (by exact hname), ih, heq, result, result, r.ident_ofToken hname]
    rfl
  | case4 dot hdot name rest hname flaw n heq ih =>
    rw [List.map_cons, List.map_cons, readSegments, if_pos (by exact hdot)]
    rw [if_pos (by exact hname), ih, heq]
    rfl
  | case5 dot hdot name rest hname =>
    rw [List.map_cons, List.map_cons, readSegments, if_pos (by exact hdot)]
    rw [if_neg (by exact hname)]
    rfl
  | case6 dot ts hdot =>
    rw [List.map_cons, readSegments.eq_def]
    dsimp only
    rw [if_neg (by exact hdot)]
    rfl

theorem expr_ofSegments (root : Ident) (segments : List Ident) :
    r.expr (.ofSegments root segments) =
      .ofSegments (r.ident root) (segments.map r.ident) := by
  rw [Expr.ofSegments, Expr.ofSegments, expr, span_merge, List.getLastD_map]
  rfl

/-- The arguments of a call, and the place of the parenthesis behind them. -/
def arguments (x : List Expr × Span) : List Expr × Span := (r.exprs x.1, r.span x.2)

mutual

/-- **Reading an expression commutes with retouching.** -/
theorem readExpr_map : ∀ ts : List Token,
    readExpr (ts.map r.token) = r.result r.expr (readExpr ts)
  | [] => by
    rw [List.map_nil, readExpr, result, ← r.unexpected_map]
    rfl
  | t :: ts => by
    have hunexpected := r.unexpected_map (t :: ts) .expression
    rw [List.map_cons] at hunexpected
    rw [List.map_cons, readExpr, readExpr, r.kind_token]
    cases hk : t.kind with
    | quoted =>
      dsimp only
      rw [r.quotedValue_text hk, result, expr, r.span_token]
    | hex =>
      dsimp only
      rw [r.text_of_hex hk, result, expr, r.span_token]
    | number =>
      dsimp only
      rw [r.text_of_ne (by rw [hk]; decide) (by rw [hk]; decide), result, expr, r.span_token]
    | ident =>
      have hname := r.ident_ofToken hk
      have htext := r.text_of_ne (t := t) (by rw [hk]; decide) (by rw [hk]; decide)
      dsimp only
      rw [hname, htext, r.current_map, r.kind_token, r.span_token, ← List.map_drop,
        readArgs_map (ts.drop 1), r.readSegments_map]
      by_cases hparen : (Token.current ts).kind = .openParen
      · rw [if_pos hparen, if_pos hparen]
        cases readArgs (ts.drop 1) with
        | mk answer n =>
          cases answer with
          | ok value =>
            simp only [result, arguments]
            rw [expr, r.span_merge]
          | error flaw => rfl
      · rw [if_neg hparen, if_neg hparen]
        by_cases hword : (t.text = "true" ∨ t.text = "false") ∧ (Token.current ts).kind ≠ .dot
        · rw [if_pos hword, if_pos hword]
          rfl
        · rw [if_neg hword, if_neg hword]
          cases readSegments ts with
          | mk answer n =>
            cases answer with
            | ok segments =>
              simp only [result]
              rw [r.expr_ofSegments]
            | error flaw => rfl
    | _ =>
      dsimp only
      rw [hunexpected]
      rfl
termination_by ts => 2 * ts.length
decreasing_by simp; omega

theorem readArgs_map : ∀ ts : List Token,
    readArgs (ts.map r.token) = r.result r.arguments (readArgs ts)
  | [] => by
    rw [List.map_nil, readArgs, result, ← r.unexpected_map]
    rfl
  | t :: ts => by
    rw [List.map_cons, readArgs, readArgs, r.kind_token]
    by_cases hline : t.kind = .newline
    · rw [if_pos hline, if_pos hline, readArgs_map ts]
      cases readArgs ts with
      | mk answer n => cases answer <;> rfl
    rw [if_neg hline, if_neg hline]
    by_cases hclose : t.kind = .closeParen
    · rw [if_pos hclose, if_pos hclose]
      rfl
    rw [if_neg hclose, if_neg hclose, ← List.map_cons, readExpr_map (t :: ts)]
    cases hread : readExpr (t :: ts) with
    | mk answer n =>
      cases answer with
      | error flaw => rfl
      | ok arg =>
        have hlines : newlineCount (((t :: ts).map r.token).drop n) =
            newlineCount ((t :: ts).drop n) := by
          rw [← List.map_drop, r.newlineCount_map]
        simp only [result]
        rw [hlines]
        generalize n + newlineCount ((t :: ts).drop n) = read
        rw [← List.map_drop, ← List.map_drop, r.current_map, r.kind_token, r.span_token]
        by_cases hcomma : (Token.current ((t :: ts).drop read)).kind = .comma
        · rw [if_pos hcomma, if_pos hcomma, readArgs_map ((t :: ts).drop (read + 1))]
          cases readArgs ((t :: ts).drop (read + 1)) with
          | mk answer m => cases answer <;> rfl
        rw [if_neg hcomma, if_neg hcomma]
        by_cases hlast : (Token.current ((t :: ts).drop read)).kind = .closeParen
        · rw [if_pos hlast, if_pos hlast]
          rfl
        · rw [if_neg hlast, if_neg hlast, r.unexpected_map]
termination_by ts => 2 * ts.length + 1
decreasing_by all_goals (simp; try omega)

end

/-! ## Bodies -/

@[simp] theorem items_reading (x : Reading) : (r.reading x).items = r.items x.items := rfl

@[simp] theorem flaws_reading (x : Reading) : (r.reading x).flaws = x.flaws.map r.flaw := rfl

@[simp] theorem used_reading (x : Reading) : (r.reading x).used = x.used := rfl

theorem reading_after (is : Body) (flaws : List Flaw) (used : Nat) (rest : Reading) :
    r.reading (.after is flaws used rest) =
      .after (r.items is) (flaws.map r.flaw) used (r.reading rest) := by
  rw [Reading.after, reading, Reading.after, reading, items_append, List.map_append]

theorem readAttribute_map (name : Ident) :
    readAttribute (r.ident name) (ts.map r.token) = r.reading (readAttribute name ts) := by
  rw [readAttribute, readAttribute, r.current_map, r.kind_token, r.span_token, r.readExpr_map]
  by_cases hnone : (Token.current ts).kind.endsLine = true
  · rw [if_pos hnone, if_pos hnone]
    rfl
  rw [if_neg hnone, if_neg hnone]
  cases readExpr ts with
  | mk answer n =>
    cases answer with
    | error flaw =>
      simp only [result]
      rw [← List.map_drop, r.lineLength_map]
      rfl
    | ok value =>
      simp only [result]
      rw [← List.map_drop, r.current_map, r.kind_token, r.lineLength_map, r.span_expr,
        r.unexpected_map]
      by_cases hend : (Token.current (ts.drop n)).kind.endsLine = true
      · rw [if_pos hend, if_pos hend, reading, items, items, item, assignment, r.span_merge]
        rfl
      · rw [if_neg hend, if_neg hend, reading, items, items, item, assignment, r.span_merge]
        rfl

/-- **Reading a body commutes with retouching.** -/
theorem readBody_map (nested : Bool) (last : Span) :
    readBody nested (r.span last) (ts.map r.token) = r.reading (readBody nested last ts) := by
  induction nested, ts using readBody.induct last with
  | case1 nested =>
    rw [List.map_nil, readBody, readBody]
    rfl
  | case2 nested t ts hk =>
    rw [List.map_cons, readBody_of_endOfFile hk, readBody_of_endOfFile (by exact hk)]
    rfl
  | case3 nested t ts hk ih =>
    rw [List.map_cons, readBody_of_newline hk, readBody_of_newline (by exact hk), ih,
      reading_after]
    rfl
  | case4 t ts hk =>
    rw [List.map_cons, readBody_true_of_closeBrace hk, readBody_true_of_closeBrace (by exact hk)]
    rfl
  | case5 nested t ts hk hnested ih =>
    obtain rfl : nested = false := by simpa using hnested
    rw [List.map_cons, readBody_false_of_closeBrace hk, readBody_false_of_closeBrace (by exact hk),
      ih, reading_after]
    rfl
  | case6 nested t ts hk name hsign value ih =>
    have hsign' : (Token.current (ts.map r.token)).kind = .equals := by
      rw [r.current_map]
      exact hsign
    rw [List.map_cons, readBody_of_equals hk hsign, readBody_of_equals (by exact hk) hsign',
      r.ident_ofToken hk, ← List.map_drop, r.readAttribute_map, reading_after]
    simp only [items_reading, flaws_reading, used_reading]
    rw [← List.map_drop, ih]
  | case7 nested t ts hk hbrace inner close hclose ihInner ih =>
    have hbrace' : (Token.current (ts.map r.token)).kind = .openBrace := by
      rw [r.current_map]
      exact hbrace
    have hinner : readBody true (r.span last) ((ts.map r.token).drop 1) = r.reading inner := by
      rw [← List.map_drop]
      exact ihInner
    have hcurrent : Token.current ((ts.map r.token).drop (1 + inner.used)) = r.token close := by
      rw [← List.map_drop]
      exact r.current_map _
    have hclose' : (Token.current ((ts.map r.token).drop
        (1 + (readBody true (r.span last) ((ts.map r.token).drop 1)).used))).kind = .closeBrace := by
      rw [hinner, used_reading, hcurrent]
      exact hclose
    rw [List.map_cons, readBody_of_closed hk hbrace hclose,
      readBody_of_closed (by exact hk) hbrace' hclose', hinner, reading_after, used_reading, hcurrent,
      r.ident_ofToken hk, ← List.map_drop, ih, items, item, r.span_merge]
    rfl
  | case8 nested t ts hk hbrace inner close hclose ihInner ih =>
    have hbrace' : (Token.current (ts.map r.token)).kind = .openBrace := by
      rw [r.current_map]
      exact hbrace
    have hinner : readBody true (r.span last) ((ts.map r.token).drop 1) = r.reading inner := by
      rw [← List.map_drop]
      exact ihInner
    have hclose' : (Token.current ((ts.map r.token).drop
        (1 + (readBody true (r.span last) ((ts.map r.token).drop 1)).used))).kind ≠ .closeBrace := by
      rw [hinner, used_reading, ← List.map_drop, r.current_map]
      exact hclose
    rw [List.map_cons, readBody_of_unclosed hk hbrace hclose,
      readBody_of_unclosed (by exact hk) hbrace' hclose', hinner, reading_after, used_reading,
      r.ident_ofToken hk, r.text_of_ne (by rw [hk]; decide) (by rw [hk]; decide), r.current_map,
      ← List.map_drop, ih, items, item, r.span_merge, List.map_append]
    rfl
  | case9 nested t ts hk hsign hbrace ih =>
    have hsign' : (Token.current (ts.map r.token)).kind ≠ .equals := by
      rw [r.current_map]
      exact hsign
    have hbrace' : (Token.current (ts.map r.token)).kind ≠ .openBrace := by
      rw [r.current_map]
      exact hbrace
    rw [List.map_cons, readBody_of_noSign hk hsign hbrace,
      readBody_of_noSign (by exact hk) hsign' hbrace', r.lineLength_map, ← List.map_drop, ih,
      reading_after, r.unexpected_map, r.text_of_ne (by rw [hk]; decide) (by rw [hk]; decide)]
    rfl
  | case10 nested t ts hend hline hclose hname ih =>
    have hunexpected := r.unexpected_map (t :: ts) .item
    rw [List.map_cons] at hunexpected
    rw [List.map_cons, readBody_of_noItem hend hline hclose hname,
      readBody_of_noItem (by exact hend) (by exact hline) (by exact hclose) (by exact hname),
      r.lineLength_map, ← List.map_drop, ih, reading_after, hunexpected]
    rfl

/-- **A source with the retouched tokens is read as the retouched document.** -/
theorem read_of_tokenize {source source' : String}
    (h : tokenize source' = (tokenize source).map r.token) :
    Body.read source' = r.reading (Body.read source) := by
  rw [Body.read, Body.read, h, r.lastSpan_map, r.readBody_map]

end Retouch

end ColorTheme
