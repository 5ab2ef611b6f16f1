/-!
# Lines of a document

Editors end a line at a line feed, a carriage return, both together, or one of the five other
breaks of Unicode.

* `splitLines` gives the lines, each with its break; there is always a last line without one.
* `flatten_splitLines` : the lines, put together, are the text.
-/

set_option autoImplicit false

namespace ColorTheme

/-- Characters that end a line. -/
def isLineBreak (c : Char) : Bool :=
  c == '\n' || c == '\x0b' || c == '\x0c' || c == '\r' || c == '\u0085' || c == '\u2028' ||
    c == '\u2029'

/-- The lines of a text, each with the break that ends it. -/
def splitLines : List Char → List (List Char)
  | [] => [[]]
  | '\r' :: '\n' :: cs => ['\r', '\n'] :: splitLines cs
  | c :: cs =>
    if isLineBreak c then [c] :: splitLines cs
    else
      match splitLines cs with
      | [] => [[c]]
      | line :: lines => (c :: line) :: lines

theorem flatten_splitLines (cs : List Char) : (splitLines cs).flatten = cs := by
  fun_induction splitLines cs with
  | case1 => rfl
  | case2 cs ih => simp [ih]
  | case3 c cs _ _ ih => simp [ih]
  | case4 c cs _ _ h ih => simp [h] at ih; simp [← ih]
  | case5 c cs _ _ line lines h ih => simp [h] at ih; simp [ih]

theorem splitLines_ne_nil (cs : List Char) : splitLines cs ≠ [] := by
  fun_induction splitLines cs <;> simp_all

end ColorTheme
