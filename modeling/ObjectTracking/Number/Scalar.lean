import ObjectTracking.Number.Binary

/-! # The numbers of the geometry

`Scalar α` is what shapes, scores and tracks ask of their numbers. The program computes with
`Float`; a law of exact geometry is a statement about an instance with exact arithmetic. -/

namespace ObjectTracking

/-- Numbers with the operations that fitting, scoring and tracking need. -/
class Scalar (α : Type) extends Add α, Sub α, Mul α, Div α, Neg α where
  /-- A count as a number. -/
  ofNat : Nat → α
  /-- `decimal m e` is `m / 10 ^ e`. -/
  decimal : Nat → Nat → α
  /-- Half a turn, in radians. -/
  pi : α
  /-- The length of the vector `(x, y)`. -/
  hypot : α → α → α
  /-- `atan2 y x` is the direction of the vector `(x, y)`. -/
  atan2 : α → α → α
  /-- `remainder a b` is `a` less a multiple of `b`, from zero up to the magnitude of `b`. -/
  remainder : α → α → α
  /-- Strictly less. Nothing is less than a value without an order, nor is it less. -/
  lt : α → α → Bool
  /-- Less or equal, with the same caution. -/
  le : α → α → Bool
  /-- A strict order of all values, used to pick the smallest of several. -/
  before : α → α → Bool
  /-- The floor, clamped to the range of a signed 64-bit word; zero where there is none. -/
  floorWord : α → Int
  /-- The machine number the drawing works with. -/
  toDouble : α → Float

namespace Scalar
variable {α : Type} [Scalar α]

def halfPi : α := pi / ofNat 2

def square (x : α) : α := x * x

/-- The smaller of two; the first where they do not compare. -/
def least (a b : α) : α := if lt b a then b else a

/-- The larger of two; the first where they do not compare. -/
def greatest (a b : α) : α := if lt a b then b else a

end Scalar

namespace Double

/-- A whole number as the nearest double, a tie going to the even neighbour. -/
def ofNat (n : Nat) : Float :=
  if n < UInt64.size then n.toUInt64.toFloat else Float.ofScientific n false 0

/-- Every double has a rank: the order by rank is the order of values, with `-0.0` just below
`0.0` and the NaNs outside the infinities. -/
def rank (x : Float) : Int :=
  let word : Int := x.toBits.toNat
  let half : Int := (1 <<< 63 : Nat)
  if word < half then word else half - 1 - word

/-- `2 ^ n`, for exponents in the range of doubles. -/
def powerOfTwo (n : Int) : Float := Float.ofBits ((1023 + n).toNat.toUInt64 <<< 52)

/-- The length of `(x, y)`, scaled by a power of two where the squares would leave the range. -/
def hypot (x y : Float) : Float :=
  let a := x.abs
  let b := y.abs
  let big := if a < b then b else a
  let length (scale : Float) : Float :=
    ((a * scale) * (a * scale) + (b * scale) * (b * scale)).sqrt
  if a.isInf || b.isInf then 1 / 0
  else if big < powerOfTwo (-500) then length (powerOfTwo 600) * powerOfTwo (-600)
  else if powerOfTwo 500 < big then length (powerOfTwo (-600)) * powerOfTwo 600
  else length 1

/-- The remainder of `a` by `b` in `[0, |b|]`, exact but for the last addition. -/
def remainder (a b : Float) : Float :=
  match Binary.ofDouble? a, Binary.ofDouble? b with
  | some p, some q =>
    if q.significand = 0 then 0 / 0
    else
      let r := (p.remainder q).toDouble
      if r < 0 then r + b.abs else r
  | some _, none => if b.isNaN then b else if a < 0 then a + b.abs else a
  | none, _ => 0 / 0

end Double

instance : Scalar Float where
  ofNat := Double.ofNat
  decimal m e := Float.ofScientific m true e
  pi := Float.ofBits 0x400921FB54442D18
  hypot := Double.hypot
  atan2 := Float.atan2
  remainder := Double.remainder
  lt a b := decide (a < b)
  le a b := decide (a ≤ b)
  before a b := decide (Double.rank a < Double.rank b)
  floorWord := clampedInt Binary.floor (signedWord 63).1 (signedWord 63).2
  toDouble := id

end ObjectTracking
