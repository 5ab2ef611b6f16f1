import ColorTheme.Text.Hex

/-!
# Escapes in names of documents

A byte of a character can be written as `%` and two hexadecimal digits.  What may not stand for
itself depends on the part of the name.

* `escapeAll` writes characters as escapes, and `unescape` gives the bytes of a text.
* `unescape_escape` : an escaped character stands for its bytes.
-/

set_option autoImplicit false

namespace ColorTheme.Uri

/-- The bytes of a character. -/
def bytesOf (c : Char) : List UInt8 := (String.singleton c).toUTF8.toList

/-- `%` and the digits of a byte. -/
def escapeByte (b : UInt8) : List Char := '%' :: (hexByte b).map Char.toUpper

/-- The bytes of a character, each as an escape. -/
def escape (c : Char) : List Char := (bytesOf c).flatMap escapeByte

/-- A text with its controls, its characters beyond ASCII and those in `more` as escapes. -/
def escapeAll (more : List Char) (cs : List Char) : List Char :=
  cs.flatMap fun c =>
    if c.toNat < 32 ∨ 126 < c.toNat ∨ c ∈ more then escape c else [c]

/-- Characters that are escaped in fragments. -/
def fragmentEscapes : List Char := [' ', '"', '<', '>', '\u0060']

/-- Characters that are escaped in queries. -/
def queryEscapes : List Char := [' ', '"', '<', '>', '#']

/-- Characters that are escaped in paths. -/
def pathEscapes : List Char := fragmentEscapes ++ ['#', '?', '\x7b', '\x7d']

/-- Characters that are escaped in the names and passwords of users. -/
def userEscapes : List Char := pathEscapes ++ ['/', ':', ';', '=', '@', '[', '\\', ']', '^', '|']

/-- The bytes that a text stands for.  A sign without two digits behind it stands for itself. -/
def unescape : List Char → List UInt8
  | [] => []
  | '%' :: high :: low :: cs =>
    match hexByte? high low with
    | some b => b :: unescape cs
    | none => bytesOf '%' ++ unescape (high :: low :: cs)
  | c :: cs => bytesOf c ++ unescape cs

theorem hexDigit?_toUpper : ∀ n < 16, hexDigit? (Nat.digitChar n).toUpper = some n := by decide

theorem unescape_escapeByte (b : UInt8) (cs : List Char) :
    unescape (escapeByte b ++ cs) = b :: unescape cs := by
  have bound := b.toNat_lt
  have digits : hexByte? (Nat.digitChar (b.toNat / 16)).toUpper
      (Nat.digitChar (b.toNat % 16)).toUpper = some b := by
    rw [hexByte?, hexDigit?_toUpper _ (by omega), hexDigit?_toUpper _ (by omega)]
    simp only [Option.bind_some, Option.map_some, Nat.div_add_mod]
    simp
  simp only [escapeByte, hexByte, List.map_cons, List.map_nil, List.cons_append, List.nil_append]
  rw [unescape, digits]

theorem unescape_escape (c : Char) (cs : List Char) :
    unescape (escape c ++ cs) = bytesOf c ++ unescape cs := by
  unfold escape
  generalize bytesOf c = bytes
  induction bytes with
  | nil => rfl
  | cons b bytes ih =>
    rw [List.flatMap_cons, List.append_assoc, unescape_escapeByte, ih, List.cons_append]

end ColorTheme.Uri
