import ColorTheme.Decimal.Binary

/-!
# A fixed number of decimal places

A measured quantity is written with a set number of digits after the point.  The exact value is
rounded to the nearest multiple of the last place, halves to the even neighbour, and zero has no
sign.

* `roundDiv` is the rounded quotient; `roundDiv_mul_le` and `le_roundDiv_mul` say that it is
  within half a unit of the exact one.
-/

set_option autoImplicit false

namespace ColorTheme

/-- `num / den` rounded to the nearest natural, halves to the even one. -/
def roundDiv (num den : Nat) : Nat :=
  let low := num / den
  match compare (2 * (num % den)) den with
  | .lt => low
  | .gt => low + 1
  | .eq => if low % 2 == 0 then low else low + 1

theorem roundDiv_mul_le (num den : Nat) : 2 * (roundDiv num den * den) ≤ 2 * num + den := by
  have h := Nat.div_add_mod num den
  have hm : num / den * den = den * (num / den) := Nat.mul_comm _ _
  unfold roundDiv
  simp only
  split
  · omega
  · rename_i hc
    have hc := Nat.compare_eq_gt.1 hc
    rw [Nat.add_mul]; omega
  · rename_i hc
    have hc := Nat.compare_eq_eq.1 hc
    split
    · omega
    · rw [Nat.add_mul]; omega

theorem le_roundDiv_mul (num den : Nat) (hden : 0 < den) :
    2 * num ≤ 2 * (roundDiv num den * den) + den := by
  have h := Nat.div_add_mod num den
  have hm : num / den * den = den * (num / den) := Nat.mul_comm _ _
  have hlt := Nat.mod_lt num hden
  unfold roundDiv
  simp only
  split
  · rename_i hc
    have hc := Nat.compare_eq_lt.1 hc
    omega
  · rw [Nat.add_mul]; omega
  · rename_i hc
    have hc := Nat.compare_eq_eq.1 hc
    split
    · omega
    · rw [Nat.add_mul]; omega

/-- `x` with exactly `places` digits after the point. -/
def fixedText (places : Nat) (x : Float) : String :=
  match Magnitude.ofFloat x with
  | (_, .nan) => "NaN"
  | (negative, .infinite) => signText negative ++ "inf"
  | (negative, .finite mantissa exponent) =>
    let digits := roundDiv (mantissa * tenTo places * twoTo exponent.toNat) (twoTo (-exponent).toNat)
    signText (negative && digits != 0) ++ positional digits places

end ColorTheme
