import ColorTheme.Text.CharClass

/-!
# Blanks

The white space of all scripts, and texts without the blanks at their ends.
-/

set_option autoImplicit false

namespace ColorTheme

/-- The twenty-five characters of white space. -/
def blankClass : CharClass :=
  [(0x9, 0xd), (0x20, 0x20), (0x85, 0x85), (0xa0, 0xa0), (0x1680, 0x1680), (0x2000, 0x200a),
   (0x2028, 0x2029), (0x202f, 0x202f), (0x205f, 0x205f), (0x3000, 0x3000)]

/-- The character is white space. -/
def isBlank (c : Char) : Bool := blankClass.contains c

/-- The text from its first character that is not in class `p`. -/
def trimStart (p : Char → Bool) (cs : List Char) : List Char := cs.dropWhile p

/-- The text up to its last character that is not in class `p`. -/
def trimEnd (p : Char → Bool) (cs : List Char) : List Char := (cs.reverse.dropWhile p).reverse

/-- The text without blanks at its ends. -/
def trim (cs : List Char) : List Char := trimEnd isBlank (trimStart isBlank cs)

/-- Only blanks. -/
def isAllBlank (cs : List Char) : Bool := cs.all isBlank

end ColorTheme
