/-!
# Classes of characters

A class of characters beyond ASCII is a list of ranges of code points.
-/

set_option autoImplicit false

namespace ColorTheme

/-- A class of characters: the first and last code points of its ranges. -/
abbrev CharClass := List (Nat × Nat)

/-- The character belongs to the class. -/
def CharClass.contains (ranges : CharClass) (c : Char) : Bool :=
  ranges.any fun (first, last) => decide (first ≤ c.toNat ∧ c.toNat ≤ last)

end ColorTheme
