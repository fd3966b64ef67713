import ObjectTracking.Image.Basic
import ObjectTracking.Number.Binary

/-! # Colors

Pictures arrive as red, green and blue; classification looks at hue, saturation and value. Each
channel is a byte: saturation and value fill it, and the hue is halved into `0..179`. -/

namespace ObjectTracking

structure Rgb where
  red : UInt8
  green : UInt8
  blue : UInt8
  deriving DecidableEq, Repr, Inhabited

/-- A color as a classifier sees it. -/
structure Hsv where
  /-- Half the angle on the color circle, in degrees. -/
  hue : UInt8
  saturation : UInt8
  value : UInt8
  deriving DecidableEq, Repr, Inhabited

namespace Rgb

def brightest (c : Rgb) : UInt8 := max c.red (max c.green c.blue)

/-- The distance between the strongest and the weakest channel. -/
def chroma (c : Rgb) : UInt8 := c.brightest - min c.red (min c.green c.blue)

/-- Chroma as a share of the strongest channel, in 255ths, to the nearest whole number. -/
def saturation (c : Rgb) : UInt8 :=
  let peak := c.brightest.toNat
  UInt8.ofNat ((2 * 255 * c.chroma.toNat + peak) / (2 * peak))

/-- The angle on the color circle in degrees, in single precision: the strongest channel picks
the third of the circle, the other two lean the angle to one side. The color must not be gray. -/
def hueDegrees (c : Rgb) : Float32 :=
  let lean (a b : UInt8) : Float32 := (a.toFloat32 - b.toFloat32) / c.chroma.toFloat32
  let degrees :=
    if c.brightest = c.red then (lean c.green c.blue + 0) * 60
    else if c.brightest = c.green then (lean c.blue c.red + 2) * 60
    else (lean c.red c.green + 4) * 60
  if degrees < 0 then degrees + 360 else degrees

/-- The hue of a color that is not gray: half the angle, to the nearest of the 180 half circles. -/
def hue (c : Rgb) : UInt8 :=
  match Binary.ofSingle? (c.hueDegrees / 2) with
  | some half => UInt8.ofNat (half.round.toNat % 180)
  | none => 0

/-- Hue, saturation and value of a color. Grays have neither hue nor saturation. -/
def toHsv (c : Rgb) : Hsv :=
  if c.chroma = 0 then ⟨0, 0, c.brightest⟩ else ⟨c.hue, c.saturation, c.brightest⟩

end Rgb

end ObjectTracking
