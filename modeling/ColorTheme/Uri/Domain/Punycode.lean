/-!
# Labels in ASCII

A label with characters beyond ASCII is written in ASCII as its ASCII characters, and behind the
last hyphen a row of digits that says which characters to insert where.

* `encode` writes a label, and `decode?` reads it.
* `isAscii_of_mem_encode` : what is written is ASCII.

Characters are inserted by rising code points, and those of one code point from left to right.  A
number counts the places that are passed over since the insertion before it, where each code
point up to the next one has a place before, between and behind all characters that are there
already.  Numbers are written with the least digit first, and the base of each digit depends on
the numbers before.
-/

set_option autoImplicit false

namespace ColorTheme.Domain

/-- The digits of numbers in labels. -/
def punyDigits : List Char := "abcdefghijklmnopqrstuvwxyz0123456789".toList

/-- The number of digits. -/
def punyBase : Nat := 36

/-- The digit of a value. -/
def punyDigit (value : Nat) : Char := punyDigits.getD value 'a'

/-- The value of a digit. -/
def punyValue? (c : Char) : Option Nat := punyDigits.findIdx? (· == c.toLower)

/-- The first code point that is inserted. -/
def firstInserted : Nat := 128

/-- The bias before the first number. -/
def firstBias : Nat := 72

/-- The value from which on the digit at `place` does not end its number. -/
def threshold (bias place : Nat) : Nat := max 1 (min 26 (place - bias))

theorem one_le_threshold (bias place : Nat) : 1 ≤ threshold bias place := Nat.le_max_left _ _

/-- The bias for numbers of about the size of `number`, when `bias` is that for smaller ones. -/
def biasFor (number bias : Nat) : Nat :=
  if 455 < number then biasFor (number / 35) (bias + punyBase)
  else bias + punyBase * number / (number + 38)
termination_by number
decreasing_by omega

/-- The bias after a number, when there are `size` characters with the one it inserts. -/
def nextBias (number size : Nat) (isFirst : Bool) : Nat :=
  let scaled := if isFirst then number / 700 else number / 2
  biasFor (scaled + scaled / size) 0

/-! ## Writing -/

/-- The digits of a number from `place` on. -/
def writeNumber (bias place number : Nat) : List Char :=
  let t := threshold bias place
  if number < t then [punyDigit number]
  else
    punyDigit (t + (number - t) % (punyBase - t)) ::
      writeNumber bias (place + punyBase) ((number - t) / (punyBase - t))
termination_by number
decreasing_by
  have low := one_le_threshold bias place
  exact Nat.lt_of_le_of_lt (Nat.div_le_self _ _) (by omega)

/-- Where the characters with a code point are inserted: behind those before them that are there
already, of which `present` are before `cs`. -/
def insertionsOf (code : Nat) (present : Nat) : List Char → List Nat
  | [] => []
  | c :: cs =>
    if c.toNat < code then insertionsOf code (present + 1) cs
    else if c.toNat = code then present :: insertionsOf code (present + 1) cs
    else insertionsOf code present cs

/-- The code points of the characters to insert, rising and each once. -/
def insertedCodes (cs : List Char) : List Nat :=
  ((cs.map Char.toNat).filter (firstInserted ≤ ·)).eraseDups.mergeSort fun a b => decide (a ≤ b)

/-- All insertions, each a code point with a place. -/
def insertions (cs : List Char) : List (Nat × Nat) :=
  (insertedCodes cs).flatMap fun code => (insertionsOf code 0 cs).map fun place => (code, place)

/-- The digits for insertions, when the places before `(code, place)` are passed and there are
`size` characters. -/
def writeInsertions (isFirst : Bool) (bias code place size : Nat) : List (Nat × Nat) → List Char
  | [] => []
  | (nextCode, nextPlace) :: rest =>
    let number := (nextCode - code) * (size + 1) + nextPlace - place
    writeNumber bias punyBase number ++
      writeInsertions false (nextBias number (size + 1) isFirst) nextCode (nextPlace + 1)
        (size + 1) rest

/-- The characters of a label that are written as they are. -/
def asciiPart (cs : List Char) : List Char := cs.filter fun c => decide (c.toNat < firstInserted)

/-- A label in ASCII. -/
def encode (cs : List Char) : List Char :=
  let ascii := asciiPart cs
  ascii ++ (if ascii.isEmpty then [] else ['-']) ++
    writeInsertions true firstBias firstInserted 0 ascii.length (insertions cs)

/-! ## Reading -/

/-- What is known within a row of digits: the characters so far; the code point and place up to
which all is passed; and of the number that is being read, its value, the weight of the next digit
and its place. -/
structure PunyState where
  out : List Char
  code : Nat
  place : Nat
  bias : Nat
  number : Nat
  weight : Nat
  digitPlace : Nat
  isFirst : Bool

/-- Inserts a character after its number is complete; nothing if there is no such character. -/
def PunyState.insert? (s : PunyState) : Option PunyState :=
  let size := s.out.length + 1
  let passed := s.place + s.number
  let code := s.code + passed / size
  let place := passed % size
  if code.isValidChar then
    some
      { out := s.out.insertIdx place (Char.ofNat code)
        code := code
        place := place + 1
        bias := nextBias s.number size s.isFirst
        number := 0
        weight := 1
        digitPlace := punyBase
        isFirst := false }
  else none

/-- Reads a digit. -/
def PunyState.read? (s : PunyState) (c : Char) : Option PunyState :=
  (punyValue? c).bind fun value =>
    let t := threshold s.bias s.digitPlace
    let next := { s with number := s.number + value * s.weight }
    if value < t then next.insert?
    else some
      { next with weight := s.weight * (punyBase - t), digitPlace := s.digitPlace + punyBase }

/-- The ASCII characters of a written label, and the digits behind them. -/
def splitAscii (cs : List Char) : List Char × List Char :=
  let digits := (cs.reverse.takeWhile (· != '-')).reverse
  match cs.take (cs.length - digits.length) with
  | [] => ([], digits)
  | ['-'] => ([], cs)
  | ascii => (ascii.dropLast, digits)

/-- The label that is written so. -/
def decode? (cs : List Char) : Option (List Char) :=
  let (ascii, digits) := splitAscii cs
  if ascii.all fun c => decide (c.toNat < firstInserted) then
    (digits.foldlM PunyState.read?
      { out := ascii, code := firstInserted, place := 0, bias := firstBias, number := 0
        weight := 1, digitPlace := punyBase, isFirst := true }).bind fun s =>
          if s.digitPlace = punyBase then some s.out else none
  else none

/-! ## What is written is ASCII -/

theorem isAscii_punyDigit (value : Nat) : (punyDigit value).toNat < firstInserted := by
  by_cases h : value < 36
  · have all : ∀ n < 36, (punyDigit n).toNat < firstInserted := by decide
    exact all value h
  · have long : punyDigits.length ≤ value := Nat.le_trans (by decide) (Nat.le_of_not_lt h)
    simp [punyDigit, List.getD, List.getElem?_eq_none long, firstInserted]

theorem isAscii_of_mem_writeNumber (bias place number : Nat) :
    ∀ c ∈ writeNumber bias place number, c.toNat < firstInserted := by
  fun_induction writeNumber bias place number with
  | case1 => simp [isAscii_punyDigit]
  | case2 _ _ _ _ ih =>
    intro c h
    rcases List.mem_cons.mp h with h | h
    · subst h; exact isAscii_punyDigit _
    · exact ih c h

theorem isAscii_of_mem_writeInsertions (isFirst : Bool) (bias code place size : Nat)
    (rows : List (Nat × Nat)) :
    ∀ c ∈ writeInsertions isFirst bias code place size rows, c.toNat < firstInserted := by
  induction rows generalizing isFirst bias code place size with
  | nil => simp [writeInsertions]
  | cons row rest ih =>
    intro c h
    rcases List.mem_append.mp h with h | h
    · exact isAscii_of_mem_writeNumber _ _ _ c h
    · exact ih _ _ _ _ _ c h

theorem isAscii_of_mem_encode {cs : List Char} {c : Char} (h : c ∈ encode cs) :
    c.toNat < firstInserted := by
  unfold encode at h
  rcases List.mem_append.mp h with h | h
  · rcases List.mem_append.mp h with h | h
    · simpa using (List.mem_filter.mp h).2
    · split at h
      · simp at h
      · rw [List.mem_singleton] at h; subst h; decide
  · exact isAscii_of_mem_writeInsertions _ _ _ _ _ _ c h

end ColorTheme.Domain
