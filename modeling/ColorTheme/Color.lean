import ColorTheme.Text.Hex

/-!
# Colors

A color is three channels of eight bits.  Every text for a color is made from its channels, and
`Color.parse` is the only way from text to a color.

* `Color.hex`, `Color.hexBare`, `Color.rgb` and others write a color.
* `Color.parse` reads a color from a text, or tells the text that is none.
* `Color.parse_hex` : a color is read back from its text.
-/

set_option autoImplicit false

namespace ColorTheme

/-- A color with eight bits for each of red, green and blue. -/
structure Color where
  red : UInt8
  green : UInt8
  blue : UInt8
deriving Repr, DecidableEq, Inhabited

/-- Why a text is no color. -/
inductive ColorError
  | invalidHex (text : String)
deriving Repr, DecidableEq

/-- What is said of a text that is no color. -/
def invalidHexMessage (text : String) : String :=
  "invalid hex color `" ++ text ++ "`: expected 6 hex digits with an optional leading `#`"

/-- The wording of a failure to read a color. -/
def ColorError.message : ColorError → String
  | .invalidHex text => invalidHexMessage text

namespace Color

/-- The six hexadecimal digits of a color. -/
def hexDigits (c : Color) : List Char := hexByte c.red ++ hexByte c.green ++ hexByte c.blue

/-- `rrggbb` -/
def hexBare (c : Color) : String := String.ofList c.hexDigits

/-- `#rrggbb`, the usual text of a color. -/
def hex (c : Color) : String := String.ofList ('#' :: c.hexDigits)

/-- `#rrggbbaa`, where a color is always opaque. -/
def hexAlpha (c : Color) : String := c.hex ++ "ff"

/-- `rrggbbaa` -/
def hexBareAlpha (c : Color) : String := c.hexBare ++ "ff"

/-- The channels as decimals, separated by commas. -/
def decimals (c : Color) : String :=
  toString c.red ++ ", " ++ toString c.green ++ ", " ++ toString c.blue

/-- `rgb(r, g, b)` -/
def rgb (c : Color) : String := "rgb(" ++ c.decimals ++ ")"

/-- `rgba(r, g, b, 1)` -/
def rgba (c : Color) : String := "rgba(" ++ c.decimals ++ ", 1)"

/-- The color with the six given hexadecimal digits. -/
def ofDigits? : List Char → Option Color
  | [r₁, r₂, g₁, g₂, b₁, b₂] =>
    (hexByte? r₁ r₂).bind fun r => (hexByte? g₁ g₂).bind fun g =>
      (hexByte? b₁ b₂).map fun b => ⟨r, g, b⟩
  | _ => none

/-- The color that a text stands for: six hexadecimal digits, with or without one `#` before
them. -/
def ofHex? (text : String) : Option Color :=
  match text.toList with
  | '#' :: digits => ofDigits? digits
  | digits => ofDigits? digits

/-- The color that a text stands for, or why it stands for none. -/
def parse (text : String) : Except ColorError Color :=
  match ofHex? text with
  | some c => .ok c
  | none => .error (.invalidHex text)

theorem ofDigits?_hexDigits (c : Color) : ofDigits? c.hexDigits = some c := by
  obtain ⟨r, g, b⟩ := c
  simp [hexDigits, hexByte, ofDigits?, hexByte?_digits]

/-- The text of a color stands for that color. -/
theorem ofHex?_hex (c : Color) : ofHex? c.hex = some c := by
  simp [ofHex?, hex, ofDigits?_hexDigits]

theorem parse_eq_ok_iff {text : String} {c : Color} :
    parse text = .ok c ↔ ofHex? text = some c := by
  unfold parse
  cases ofHex? text <;> simp

theorem parse_hex (c : Color) : parse c.hex = .ok c := parse_eq_ok_iff.2 c.ofHex?_hex

/-- The channels as shares of the full scale. -/
def toUnit (c : Color) : Float32 × Float32 × Float32 :=
  (c.red.toFloat32 / 255, c.green.toFloat32 / 255, c.blue.toFloat32 / 255)

/-- The channel for a share of the full scale, rounded; shares outside the scale count as its
ends. -/
def channelOfUnit (x : Float32) : UInt8 :=
  let share := if x < 0 then 0 else if 1 < x then 1 else x
  (share * 255).round.toUInt8

/-- The color with the given shares of the full scale. -/
def ofUnit (r g b : Float32) : Color := ⟨channelOfUnit r, channelOfUnit g, channelOfUnit b⟩

end Color

/-- A color with text decoration. -/
structure Style where
  color : Color
  bold : Bool
  italic : Bool
  underline : Bool
deriving Repr, DecidableEq, Inhabited

end ColorTheme
