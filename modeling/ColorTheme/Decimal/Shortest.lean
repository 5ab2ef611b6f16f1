import ColorTheme.Decimal.Binary

/-!
# The fewest digits that read back

Numbers of the language are written with the fewest decimal digits that read back as the same
number, always in positional notation, and with no point in a whole number.

A finite number stands for the interval of reals that round to it, whose ends count exactly when
its mantissa is even.  Decimal grids of rising precision are tried, and on each the two points
next to the number; the first grid with a point in the interval wins, and of two points the
nearer, or the greater if they are equally near.
-/

set_option autoImplicit false

namespace ColorTheme

/-- The numbers that round to `mantissa · 2 ^ exponent`, as multiples of `1 / unit`: the number
itself, the two ends of its interval, and whether the ends count. -/
structure RoundingInterval where
  value : Nat
  low : Nat
  high : Nat
  unit : Nat
  closed : Bool

/-- Decimal places that suffice to write the grids of every number as whole numbers. -/
def gridPlaces : Nat := 345

/-- The rounding interval of `mantissa · 2 ^ exponent · 10 ^ gridPlaces`.  The gap below a power
of two is half the gap above it. -/
def RoundingInterval.of (mantissa : Nat) (exponent : Int) : RoundingInterval :=
  let quarter := twoTo (exponent - 2).toNat * tenTo gridPlaces
  let below := if mantissa == twoTo 52 && decide (-1074 < exponent) then 1 else 2
  { value := 4 * mantissa * quarter
    low := (4 * mantissa - below) * quarter
    high := (4 * mantissa + 2) * quarter
    unit := twoTo (2 - exponent).toNat
    closed := mantissa % 2 == 0 }

namespace RoundingInterval

/-- The whole number `n` lies in the interval. -/
def contains (i : RoundingInterval) (n : Nat) : Bool :=
  let x := n * i.unit
  (decide (i.low < x) || (i.closed && i.low == x)) &&
    (decide (x < i.high) || (i.closed && i.high == x))

/-- The point of the grid with the given step that stands for the interval, counted in steps. -/
def onGrid? (i : RoundingInterval) (step : Nat) : Option Nat :=
  let below := i.value / (i.unit * step)
  let above := below + 1
  match i.contains (below * step), i.contains (above * step) with
  | true, true =>
    match compare (2 * i.value) ((below + above) * step * i.unit) with
    | .lt => some below
    | .gt => some above
    | .eq => some above
  | true, false => some below
  | false, true => some above
  | false, false => none

end RoundingInterval

/-- The fewest digits that read back as `mantissa · 2 ^ exponent`, and the power of ten that they
are multiplied by, counted from `10 ^ (-gridPlaces)`. -/
def shortestDigits (mantissa : Nat) (exponent : Int) : Nat × Nat :=
  let interval := RoundingInterval.of mantissa exponent
  let top := (Nat.toDigits 10 (interval.value / interval.unit)).length
  let found := (List.range 18).findSome? fun n =>
    (interval.onGrid? (tenTo (top - n))).map fun digits => (digits, top - n)
  found.getD (interval.value / interval.unit, 0)

/-- A number as the language writes it. -/
def shortestText (x : Float) : String :=
  match Magnitude.ofFloat x with
  | (_, .nan) => "NaN"
  | (negative, .infinite) => signText negative ++ "inf"
  | (negative, .finite 0 _) => signText negative ++ "0"
  | (negative, .finite mantissa exponent) =>
    let (digits, power) := shortestDigits mantissa exponent
    signText negative ++
      positional (digits * tenTo (power - gridPlaces)) (gridPlaces - power)

end ColorTheme
