import ObjectTracking.Number.Binary

/-! # Decimal texts of doubles

`shortest` picks the decimal that stands for a double: the fewest digits that read back as it, and
of those the nearest to it. How the digits are laid out is up to the text they are written into. -/

namespace ObjectTracking

/-- The number `± digits * 10 ^ exponent`. -/
structure Decimal where
  negative : Bool
  digits : Nat
  exponent : Int
  deriving DecidableEq, Repr

namespace Decimal

/-- How many decimal digits a number has; zero has one. -/
def digitCount (n : Nat) : Nat := (Nat.toDigits 10 n).length

/-- The positions of the leading digit of `num / den > 0` before the point: `k` with
`10 ^ (k - 1) ≤ num / den < 10 ^ k`. -/
def leadingPlace (num den : Nat) : Int :=
  if den ≤ num then digitCount (num / den) else 1 - (digitCount ((den - 1) / num) : Int)

/-- `a * 10 ^ e` compared with `num / den`, both taken apart into whole numbers. -/
def scaledPair (a : Nat) (e : Int) (num den : Nat) : Nat × Nat :=
  (a * Nat.pow 10 e.toNat * den, num * Nat.pow 10 (-e).toNat)

/-- The reals that read back as `significand * 2 ^ exponent`, over a common denominator: the lower
end, the value, the upper end, the denominator. Below a power of two the doubles are twice as close
together, except at the lowest exponent. -/
def readsBack (b : Binary) : Nat × Nat × Nat × Nat :=
  let unit := 1 <<< b.exponent.toNat
  let den := 4 <<< (-b.exponent).toNat
  let below := if b.significand = 1 <<< 52 ∧ -1074 < b.exponent then 1 else 2
  ((4 * b.significand - below) * unit, 4 * b.significand * unit, (4 * b.significand + 2) * unit,
    den)

/-- Where a value halfway between two decimals goes. -/
inductive Tie where
  | even
  | up
  deriving DecidableEq, Repr

/-- A value halfway above `floor` goes up. -/
def Tie.goesUp (tie : Tie) (floor : Nat) : Bool :=
  match tie with
  | even => floor % 2 = 1
  | up => true

/-- The better of the two neighbors of a value on the grid of multiples of `10 ^ e`, if one of them
reads back as it. The ends of the interval belong to it for even significands. -/
def onGrid? (tie : Tie) (b : Binary) (e : Int) : Option Nat :=
  let (low, value, high, den) := readsBack b
  let floor := value * Nat.pow 10 (-e).toNat / (den * Nat.pow 10 e.toNat)
  let inside (a : Nat) : Bool :=
    let (x, lowest) := scaledPair a e low den
    let (_, highest) := scaledPair a e high den
    if b.significand % 2 = 0 then lowest ≤ x && x ≤ highest else lowest < x && x < highest
  let distance (a : Nat) : Nat :=
    let (x, exact) := scaledPair a e value den
    x - exact + (exact - x)
  if inside floor then
    let nearer := distance (floor + 1) < distance floor ||
      distance (floor + 1) = distance floor && tie.goesUp floor
    if inside (floor + 1) && nearer then some (floor + 1) else some floor
  else if inside (floor + 1) then some (floor + 1) else none

def trimmed (negative : Bool) (digits : Nat) (exponent : Int) : (fuel : Nat) → Decimal
  | 0 => ⟨negative, digits, exponent⟩
  | fuel + 1 =>
    if digits % 10 = 0 then trimmed negative (digits / 10) (exponent + 1) fuel
    else ⟨negative, digits, exponent⟩

/-- The most digits that telling doubles apart can take. -/
def maxDigits : Nat := 17

/-- The shortest decimal that reads back as a finite double, the nearest of several. -/
def shortest (tie : Tie) (b : Binary) : Decimal :=
  if b.significand = 0 then ⟨b.negative, 0, 0⟩
  else
    let (_, value, _, den) := readsBack b
    let place := leadingPlace value den
    let found := (List.range maxDigits).findSome? fun (i : Nat) =>
      let e := place - ((i : Nat) + 1 : Int)
      (onGrid? tie b e).map fun digits => trimmed b.negative digits e maxDigits
    found.getD ⟨b.negative, value, 0⟩

/-! ### Layout -/

/-- The minus sign of a negative number, also of a negative zero. -/
def sign (d : Decimal) : String := if d.negative then "-" else ""

def zeros (n : Nat) : String := String.ofList (List.replicate n '0')

def digitText (d : Decimal) : List Char := Nat.toDigits 10 d.digits

/-- How many digits stand before the point; not positive if the number is below one tenth. -/
def pointPlace (d : Decimal) : Int := (digitCount d.digits : Int) + d.exponent

/-- All digits in their places, with `whole` behind a number without a fraction. -/
def positional (d : Decimal) (whole : String) : String :=
  let text := d.digitText
  let place := d.pointPlace
  if 0 ≤ d.exponent then d.sign ++ String.ofList text ++ zeros d.exponent.toNat ++ whole
  else if 0 < place then
    d.sign ++ String.ofList (text.take place.toNat) ++ "." ++ String.ofList (text.drop place.toNat)
  else d.sign ++ "0." ++ zeros (-place).toNat ++ String.ofList text

/-- One digit before the point, and the power of ten with its sign. -/
def scientific (d : Decimal) : String :=
  let text := d.digitText
  let fraction := if text.length ≤ 1 then "" else "." ++ String.ofList (text.drop 1)
  let power := d.pointPlace - 1
  d.sign ++ String.ofList (text.take 1) ++ fraction ++ (if power < 0 then "e-" else "e+") ++
    String.ofList (Nat.toDigits 10 power.natAbs)

/-- The double nearest to a decimal, infinite if it is too large. -/
def toDouble (d : Decimal) : Float :=
  let magnitude : Float :=
    if d.digits = 0 then 0
    else if 310 < d.pointPlace then 1 / 0
    else if d.pointPlace < -330 then 0
    else if 0 ≤ d.exponent then Float.ofScientific d.digits false d.exponent.toNat
    else Float.ofScientific d.digits true (-d.exponent).toNat
  if d.negative then -magnitude else magnitude

end Decimal

/-- A double in running text: the shortest digits, never with a power of ten. -/
def plainText (x : Float) : String :=
  match Binary.ofDouble? x with
  | some b => (Decimal.shortest .up b).positional ""
  | none => if x < 0 then "-inf" else if 0 < x then "inf" else "NaN"

end ObjectTracking
