import ColorTheme.Color

/-!
# Perceptual lightness

Colors are made lighter and darker in the space of perceptual lightness, chroma and hue, where
equal steps of lightness look equal.

* `Oklch.ofColor` and `Oklch.toColor` convert; channels out of scale are cut off on the way back.
* `Color.brighten` and `Color.darken` shift the lightness by a percentage of its full range.
-/

set_option autoImplicit false

namespace ColorTheme

/-- Lightness, chroma, and hue in degrees. -/
structure Oklch where
  lightness : Float
  chroma : Float
  hue : Float
deriving Repr, Inhabited

/-- The light intensity of a channel. -/
def linearOfChannel (x : Float) : Float :=
  if x ≤ 0.04045 then x / 12.92 else ((x + 0.055) / 1.055).pow 2.4

/-- The channel for a light intensity. -/
def channelOfLinear (x : Float) : Float :=
  if x ≤ 0.0031308 then 12.92 * x else 1.055 * x.pow (1.0 / 2.4) - 0.055

/-- `x` cut off to the range from 0 to 1. -/
def clampUnit (x : Float) : Float := if x < 0 then 0 else if 1 < x then 1 else x

/-- Half of the circumference of the unit circle. -/
def halfTurn : Float := 3.14159265358979323846

/-- The third power. -/
def cube (x : Float) : Float := x * x * x

namespace Oklch

/-- The lightness, chroma and hue of a color. -/
def ofColor (color : Color) : Oklch :=
  let r := linearOfChannel (color.red.toFloat / 255)
  let g := linearOfChannel (color.green.toFloat / 255)
  let b := linearOfChannel (color.blue.toFloat / 255)
  let long := (0.4122214708 * r + 0.5363325363 * g + 0.0514459929 * b).cbrt
  let medium := (0.2119034982 * r + 0.6806995451 * g + 0.1073969566 * b).cbrt
  let short := (0.0883024619 * r + 0.2817188376 * g + 0.6299787005 * b).cbrt
  let greenRed := 1.9779984951 * long - 2.4285922050 * medium + 0.4505937099 * short
  let blueYellow := 0.0259040371 * long + 0.7827717662 * medium - 0.8086757660 * short
  let degrees := Float.atan2 blueYellow greenRed * (180.0 / halfTurn)
  { lightness := 0.2104542553 * long + 0.7936177850 * medium - 0.0040720468 * short
    chroma := (greenRed * greenRed + blueYellow * blueYellow).sqrt
    hue := if degrees < 0 then degrees + 360 else degrees }

/-- The nearest color with the given lightness, chroma and hue. -/
def toColor (lch : Oklch) : Color :=
  let angle := lch.hue * (halfTurn / 180.0)
  let greenRed := lch.chroma * angle.cos
  let blueYellow := lch.chroma * angle.sin
  let long := cube (lch.lightness + 0.3963377774 * greenRed + 0.2158037573 * blueYellow)
  let medium := cube (lch.lightness - 0.1055613458 * greenRed - 0.0638541728 * blueYellow)
  let short := cube (lch.lightness - 0.0894841775 * greenRed - 1.2914855480 * blueYellow)
  let channel (x : Float) : UInt8 := (clampUnit (channelOfLinear x) * 255).round.toUInt8
  { red := channel (4.0767416621 * long - 3.3077115913 * medium + 0.2309699292 * short)
    green := channel (-1.2684380046 * long + 2.6097574011 * medium - 0.3413193965 * short)
    blue := channel (-0.0041960863 * long - 0.7034186147 * medium + 1.7076147010 * short) }

end Oklch

namespace Color

/-- The color whose lightness differs by `delta` of the full range. -/
def shiftLightness (color : Color) (delta : Float) : Color :=
  if delta == 0 then color
  else
    let lch := Oklch.ofColor color
    { lch with lightness := clampUnit (lch.lightness + delta) }.toColor

/-- The color `percent` points lighter. -/
def brighten (color : Color) (percent : Float) : Color := color.shiftLightness (percent / 100)

/-- The color `percent` points darker. -/
def darken (color : Color) (percent : Float) : Color := color.shiftLightness (-percent / 100)

end Color

end ColorTheme
