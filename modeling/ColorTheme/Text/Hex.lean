/-!
# Hexadecimal digits

* `hexByte` writes a byte with two digits, and `hexByte?` reads it from digits of either case.
* `hexByte?_digits` : a byte is read back from its digits.
-/

set_option autoImplicit false

namespace ColorTheme

/-- The value of a hexadecimal digit of either case. -/
def hexDigit? (c : Char) : Option Nat :=
  if c.isDigit then some (c.toNat - '0'.toNat)
  else if 'a' ≤ c ∧ c ≤ 'f' then some (c.toNat - 'a'.toNat + 10)
  else if 'A' ≤ c ∧ c ≤ 'F' then some (c.toNat - 'A'.toNat + 10)
  else none

/-- A byte as two lower-case hexadecimal digits. -/
def hexByte (b : UInt8) : List Char := [Nat.digitChar (b.toNat / 16), Nat.digitChar (b.toNat % 16)]

/-- The byte with the two given hexadecimal digits. -/
def hexByte? (high low : Char) : Option UInt8 :=
  (hexDigit? high).bind fun h => (hexDigit? low).map fun l => UInt8.ofNat (16 * h + l)

theorem hexDigit?_digitChar : ∀ n < 16, hexDigit? (Nat.digitChar n) = some n := by decide

theorem hexByte?_digits (b : UInt8) :
    hexByte? (Nat.digitChar (b.toNat / 16)) (Nat.digitChar (b.toNat % 16)) = some b := by
  have bound := b.toNat_lt
  rw [hexByte?, hexDigit?_digitChar _ (by omega), hexDigit?_digitChar _ (by omega)]
  simp only [Option.bind_some, Option.map_some, Nat.div_add_mod]
  simp

end ColorTheme
