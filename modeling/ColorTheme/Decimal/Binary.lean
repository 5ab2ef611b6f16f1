/-!
# What a floating-point number stands for

A finite number is `mantissa · 2 ^ exponent` with a sign; both decimal notations are computed
from that reading in exact arithmetic.
-/

set_option autoImplicit false

namespace ColorTheme

/-- The power of two with the given exponent. -/
def twoTo (n : Nat) : Nat := Nat.pow 2 n

/-- The power of ten with the given exponent. -/
def tenTo (n : Nat) : Nat := Nat.pow 10 n

/-- The value of a floating-point number without its sign. -/
inductive Magnitude
  | nan
  | infinite
  | finite (mantissa : Nat) (exponent : Int)
deriving Repr, DecidableEq

/-- The sign bit (true when set) and the magnitude of a floating-point number. -/
def Magnitude.ofFloat (x : Float) : Bool × Magnitude :=
  let bits : Nat := x.toBits.toNat
  let negative := decide (twoTo 63 ≤ bits)
  let biased : Nat := bits / twoTo 52 % twoTo 11
  let fraction : Nat := bits % twoTo 52
  if biased == 2047 then (negative, if fraction == 0 then .infinite else .nan)
  else if biased == 0 then (negative, .finite fraction (-1074))
  else (negative, .finite (twoTo 52 + fraction) (Int.ofNat biased - 1075))

/-- The sign that is written before a magnitude. -/
def signText (negative : Bool) : String := if negative then "-" else ""

/-- `digits · 10 ^ (-places)` with exactly `places` digits after the point, and no point when
there are none. -/
def positional (digits places : Nat) : String :=
  if places == 0 then toString digits
  else
    let fraction := toString (digits % tenTo places)
    toString (digits / tenTo places) ++ "." ++
      String.ofList (List.replicate (places - fraction.length) '0') ++ fraction

end ColorTheme
