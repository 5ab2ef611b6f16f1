import ColorTheme.Decimal.Binary

/-!
# Numbers, dates and times in TOML

A number, a date or a time is a single word of letters, digits and signs; only a date and a time
may be apart by a blank.

* `isNumber` holds of whole numbers of 64 bits and of numbers with a fraction or an exponent.
* `isMoment` holds of dates, times and both together.
* `readWord` reads any of them.
-/

set_option autoImplicit false

namespace ColorTheme.Toml

/-! ## Numbers -/

/-- Digits, where a single underscore may stand between two of them. -/
def isGrouped (digit : Char → Bool) : List Char → Bool
  | [] => false
  | [c] => digit c
  | c :: '_' :: cs => digit c && isGrouped digit cs
  | c :: cs => digit c && isGrouped digit cs

/-- The value of digits of a base, which may hold underscores. -/
def valueOf (base : Nat) (cs : List Char) : Nat :=
  (cs.filter (· != '_')).foldl (fun n c =>
    base * n + (if c.isDigit then c.toNat - '0'.toNat else c.toLower.toNat - 'a'.toNat + 10)) 0

/-- A word without its sign. -/
def unsigned : List Char → List Char
  | '+' :: cs => cs
  | '-' :: cs => cs
  | cs => cs

/-- Decimal digits without a useless zero at the beginning. -/
def isDecimal (cs : List Char) : Bool :=
  isGrouped Char.isDigit cs && (cs.head? != some '0' || cs.length == 1)

/-- The greatest whole number. -/
def greatestWhole : Nat := twoTo 63 - 1

/-- A whole number. -/
def isWhole : List Char → Bool
  | '0' :: 'x' :: cs =>
    isGrouped (fun c => c.isDigit || ('a' ≤ c.toLower && c.toLower ≤ 'f')) cs &&
      valueOf 16 cs ≤ greatestWhole
  | '0' :: 'o' :: cs => isGrouped (fun c => '0' ≤ c && c ≤ '7') cs && valueOf 8 cs ≤ greatestWhole
  | '0' :: 'b' :: cs => isGrouped (fun c => c == '0' || c == '1') cs && valueOf 2 cs ≤ greatestWhole
  | '-' :: cs => isDecimal cs && valueOf 10 cs ≤ greatestWhole + 1
  | cs => isDecimal (unsigned cs) && valueOf 10 (unsigned cs) ≤ greatestWhole

/-- The letter before an exponent. -/
def isExponentLetter (c : Char) : Bool := c == 'e' || c == 'E'

/-- The parts of a number with a fraction or an exponent: the digits before the point, those after
it, and the exponent. -/
def floatParts? (cs : List Char) : Option (List Char × List Char × List Char) :=
  let (whole, rest) := cs.span fun c => c != '.' && !isExponentLetter c
  let (fraction, power) := rest.span fun c => !isExponentLetter c
  let good :=
    isDecimal (unsigned whole) && !rest.isEmpty &&
      (fraction.isEmpty || isGrouped Char.isDigit (fraction.drop 1)) &&
      (power.isEmpty || isGrouped Char.isDigit (unsigned (power.drop 1)))
  if good then some (whole, fraction.drop 1, power.drop 1) else none

/-- The decimal is so great that no binary number of 64 bits is near it. -/
def overflows (whole fraction power : List Char) : Bool :=
  let digits := valueOf 10 (whole ++ fraction)
  let size := valueOf 10 (unsigned power)
  let places := (fraction.filter (· != '_')).length
  let shift : Int := (if power.head? = some '-' then -(size : Int) else size) - places
  let length : Int := (Nat.toDigits 10 digits).length + shift
  if digits = 0 ∨ length < 300 then false
  else if 400 < length then true
  else (twoTo 54 - 1) * twoTo 970 * tenTo (-shift).toNat ≤ digits * tenTo shift.toNat

/-- A number with a fraction or an exponent, which must not be too great. -/
def isFloat (cs : List Char) : Bool :=
  match floatParts? cs with
  | some (whole, fraction, power) =>
    whole.head? == some '-' || !overflows (unsigned whole) fraction power
  | none => ["inf", "nan"].contains (String.ofList (unsigned cs))

/-- A number. -/
def isNumber (cs : List Char) : Bool := isWhole cs || isFloat cs

/-! ## Dates and times -/

/-- What follows two digits with a value from `low` to `high`. -/
def twoDigits? (low high : Nat) : List Char → Option (List Char)
  | a :: b :: cs =>
    if a.isDigit ∧ b.isDigit ∧ low ≤ valueOf 10 [a, b] ∧ valueOf 10 [a, b] ≤ high then some cs
    else none
  | _ => none

/-- The number of days in a month. -/
def daysIn (year month : Nat) : Nat :=
  if month = 2 then
    if year % 4 = 0 ∧ (year % 100 ≠ 0 ∨ year % 400 = 0) then 29 else 28
  else if [4, 6, 9, 11].contains month then 30
  else 31

/-- What follows a date. -/
def afterDate? : List Char → Option (List Char)
  | y₁ :: y₂ :: y₃ :: y₄ :: '-' :: m₁ :: m₂ :: '-' :: cs =>
    let month := valueOf 10 [m₁, m₂]
    if [y₁, y₂, y₃, y₄, m₁, m₂].all Char.isDigit ∧ 1 ≤ month ∧ month ≤ 12 then
      twoDigits? 1 (daysIn (valueOf 10 [y₁, y₂, y₃, y₄]) month) cs
    else none
  | _ => none

/-- What follows a colon. -/
def afterColon? : List Char → Option (List Char)
  | ':' :: cs => some cs
  | _ => none

/-- What follows a time: hours, minutes, seconds and, maybe, a fraction of a second. -/
def afterTime? (cs : List Char) : Option (List Char) :=
  (twoDigits? 0 23 cs).bind fun cs => (afterColon? cs).bind fun cs =>
    (twoDigits? 0 59 cs).bind fun cs => (afterColon? cs).bind fun cs =>
      (twoDigits? 0 60 cs).bind fun cs =>
        match cs with
        | '.' :: cs =>
          match cs with
          | c :: _ => if c.isDigit then some (cs.dropWhile Char.isDigit) else none
          | [] => none
        | cs => some cs

/-- The distance from the time of Greenwich. -/
def isOffset : List Char → Bool
  | [] => true
  | ['Z'] => true
  | ['z'] => true
  | sign :: cs =>
    (sign == '+' || sign == '-') &&
      ((twoDigits? 0 23 cs).bind fun cs => (afterColon? cs).bind (twoDigits? 0 59)) == some []

/-- A time, which may have an offset. -/
def isTimeOfDay (cs : List Char) : Bool :=
  match afterTime? cs with
  | some rest => isOffset rest
  | none => false

/-- A date, a time, or both. -/
def isMoment (cs : List Char) : Bool :=
  match afterDate? cs with
  | some [] => true
  | some ('T' :: cs) => isTimeOfDay cs
  | some ('t' :: cs) => isTimeOfDay cs
  | some _ => false
  | none => afterTime? cs == some []

/-! ## Words -/

/-- The characters of numbers, dates and times. -/
def isWordChar (c : Char) : Bool := c.isAlphanum || ['_', '+', '-', ':', '.'].contains c

/-- A number, a date or a time, and what follows it. -/
def readWord (cs : List Char) : Option (List Char × List Char) :=
  let (word, rest) := cs.span isWordChar
  let (more, afterMore) := (rest.drop 1).span isWordChar
  if rest.head? = some ' ' ∧ afterDate? word = some [] ∧ isTimeOfDay more then
    some (word ++ ' ' :: more, afterMore)
  else if isNumber word || isMoment word then some (word, rest)
  else none

end ColorTheme.Toml
