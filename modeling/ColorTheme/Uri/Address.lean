import ColorTheme.Text.Fields
import ColorTheme.Text.Hex

/-!
# Addresses by numbers

A host can be named by its address: a number of 32 bits, usually as four decimals, or eight pieces
of 16 bits each.

* `ofParts?` reads an address of 32 bits, whose numbers may be octal and hexadecimal too.
* `ofPieces?` reads one of eight pieces, and `piecesText` writes it.  Two colons stand for the
  pieces that are zero and left out.
* `length_of_ofPieces?` : there are always eight pieces.
-/

set_option autoImplicit false

namespace ColorTheme.Address

/-- The number with the given digits. -/
def ofDigits? (base : Nat) (digits : List Char) : Option Nat :=
  digits.foldlM (fun value c =>
    (hexDigit? c).bind fun d => if d < base then some (base * value + d) else none) 0

/-! ## Four decimals -/

/-- A number: decimal, octal behind a zero, or hexadecimal behind `0x`. -/
def number? : List Char → Option Nat
  | [] => none
  | ['0'] => some 0
  | '0' :: 'x' :: digits => ofDigits? 16 digits
  | '0' :: 'X' :: digits => ofDigits? 16 digits
  | '0' :: digits => ofDigits? 8 digits
  | digits => ofDigits? 10 digits

/-- The parts of a name between its dots; a dot at the end does not count. -/
def partsOf (cs : List Char) : List (List Char) :=
  let parts := fields '.' cs
  if parts.getLast? == some [] then parts.dropLast else parts

/-- The name ends in a number, and so has to be an address. -/
def endsInNumber (cs : List Char) : Bool :=
  match (partsOf cs).getLast? with
  | some last => (!last.isEmpty && last.all Char.isDigit) || (number? last).isSome
  | none => false

/-- The address with the given numbers, of which the last fills all bytes that the others leave. -/
def ofNumbers? (place : Nat) : List Nat → Option Nat
  | [] => none
  | [last] => if last < 256 * place then some last else none
  | n :: rest =>
    if n < 256 ∧ 1 < place then (ofNumbers? (place / 256) rest).map (n * place + ·) else none

/-- The address that a name stands for. -/
def ofParts? (cs : List Char) : Option Nat :=
  ((partsOf cs).mapM number?).bind (ofNumbers? (256 * 256 * 256))

/-- The four decimals of an address. -/
def partsText (address : Nat) : List Char :=
  joinFields '.' ([256 * 256 * 256, 256 * 256, 256, 1].map fun place =>
    Nat.toDigits 10 (address / place % 256))

/-! ## Eight pieces -/

/-- A piece: up to four hexadecimal digits. -/
def piece? (cs : List Char) : Option Nat :=
  if 0 < cs.length ∧ cs.length ≤ 4 then ofDigits? 16 cs else none

/-- A decimal of at most 255, without zeros before it. -/
def byte? (cs : List Char) : Option Nat :=
  if cs.isEmpty ∨ (cs.head? = some '0' ∧ 1 < cs.length) then none
  else (ofDigits? 10 cs).filter (· < 256)

/-- Two pieces from four decimals. -/
def twoPieces? (cs : List Char) : Option (List Nat) :=
  match (fields '.' cs).mapM byte? with
  | some [a, b, c, d] => some [256 * a + b, 256 * c + d]
  | _ => none

/-- The pieces between colons.  With `decimals` the last two may be four decimals. -/
def pieces? (decimals : Bool) : List (List Char) → Option (List Nat)
  | [] => some []
  | [last] => ((piece? last).map ([·])).or (if decimals then twoPieces? last else none)
  | first :: rest => (piece? first).bind fun n => (pieces? decimals rest).map (n :: ·)

/-- The pieces in a text, where an empty text has none. -/
def piecesIn? (decimals : Bool) (cs : List Char) : Option (List Nat) :=
  if cs.isEmpty then some [] else pieces? decimals (fields ':' cs)

/-- What stands before and behind the first two colons. -/
def cutAtGap? : List Char → Option (List Char × List Char)
  | ':' :: ':' :: cs => some ([], cs)
  | c :: cs => (cutAtGap? cs).map fun (before, behind) => (c :: before, behind)
  | [] => none

/-- The number of pieces. -/
def pieceCount : Nat := 8

/-- The pieces of an address.  Two colons leave out at least one piece. -/
def ofPieces? (cs : List Char) : Option (List Nat) :=
  match cutAtGap? cs with
  | none => (piecesIn? true cs).filter (·.length = pieceCount)
  | some (before, behind) =>
    (piecesIn? false before).bind fun first => (piecesIn? true behind).bind fun last =>
      if first.length + last.length < pieceCount then
        some (first ++ List.replicate (pieceCount - (first.length + last.length)) 0 ++ last)
      else none

theorem length_of_ofPieces? {cs : List Char} {pieces : List Nat} (h : ofPieces? cs = some pieces) :
    pieces.length = pieceCount := by
  unfold ofPieces? at h
  split at h
  · simpa using (Option.filter_eq_some_iff.mp h).2
  · simp only [Option.bind_eq_some_iff] at h
    obtain ⟨first, -, last, -, h⟩ := h
    split at h
    · cases h
      simp only [List.length_append, List.length_replicate]
      omega
    · cases h

/-- The place and length of the longest row of zeros, the first of several. -/
def longestGap (pieces : List Nat) : Nat × Nat :=
  ((List.range pieces.length).map fun i =>
    (i, ((pieces.drop i).takeWhile (· == 0)).length)).foldl
      (fun best row => if best.2 < row.2 then row else best) (0, 0)

/-- The text of an address, in which two colons stand for the longest row of two zeros or more. -/
def piecesText (pieces : List Nat) : List Char :=
  let text (pieces : List Nat) := joinFields ':' (pieces.map (Nat.toDigits 16))
  let (place, length) := longestGap pieces
  if length < 2 then text pieces
  else text (pieces.take place) ++ "::".toList ++ text (pieces.drop (place + length))

end ColorTheme.Address
