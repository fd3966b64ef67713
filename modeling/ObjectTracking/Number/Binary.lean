/-! # Finite floating-point values, exactly

A finite double or single is `± significand * 2 ^ exponent`. `Binary` is that triple, so that
rounding to an integer and remainders are plain integer arithmetic. -/

namespace ObjectTracking

/-- The value `± significand * 2 ^ exponent`. -/
structure Binary where
  negative : Bool
  significand : Nat
  exponent : Int
  deriving DecidableEq, Repr

namespace Binary

/-- Reads a word with the given numbers of fraction and exponent bits below its sign bit.
Infinities and NaN, whose exponent field is all ones, have no finite value. -/
def ofWord? (fractionBits exponentBits word : Nat) : Option Binary :=
  let fraction := word % (1 <<< fractionBits)
  let field := (word >>> fractionBits) % (1 <<< exponentBits)
  let negative := (word >>> (fractionBits + exponentBits)) % 2 == 1
  let lowest : Int := 2 - (1 <<< (exponentBits - 1) : Nat) - fractionBits
  if field + 1 = 1 <<< exponentBits then none
  else if field = 0 then some ⟨negative, fraction, lowest⟩
  else some ⟨negative, fraction + 1 <<< fractionBits, lowest + field - 1⟩

def ofDouble? (x : Float) : Option Binary := ofWord? 52 11 x.toBits.toNat

def ofSingle? (x : Float32) : Option Binary := ofWord? 23 8 x.toBits.toNat

/-- `n` with the sign of the value. -/
def signed (b : Binary) (n : Nat) : Int := if b.negative then -(n : Int) else n

def floor (b : Binary) : Int :=
  match b.exponent with
  | .ofNat k => b.signed (b.significand <<< k)
  | .negSucc k => b.signed b.significand >>> (k + 1)

/-- The integer part: the value rounded toward zero. -/
def truncate (b : Binary) : Int :=
  match b.exponent with
  | .ofNat k => b.signed (b.significand <<< k)
  | .negSucc k => b.signed (b.significand >>> (k + 1))

def round (b : Binary) : Int :=
  match b.exponent with
  | .ofNat k => b.signed (b.significand <<< k)
  | .negSucc k => b.signed ((b.significand + 1 <<< k) >>> (k + 1))

/-- The double with this value, for a value that a double has. -/
def toDouble (b : Binary) : Float :=
  let top := b.significand.log2
  let signWord := if b.negative then 1 <<< 63 else 0
  let field := (top : Int) + b.exponent + 1023
  let word :=
    if b.significand = 0 then 0
    else if 1 ≤ field then
      field.toNat <<< 52 + ((b.significand <<< 52) >>> top - 1 <<< 52)
    else (b.significand <<< (b.exponent + 1074).toNat) >>> (-1074 - b.exponent).toNat
  Float.ofBits (UInt64.ofNat (signWord + word))

/-- The remainder of `a` by `b ≠ 0` with the sign of `a`, smaller than `b` in magnitude. -/
def remainder (a b : Binary) : Binary :=
  let low := min a.exponent b.exponent
  let scaled (c : Binary) : Nat := c.significand <<< (c.exponent - low).toNat
  ⟨a.negative, scaled a % scaled b, low⟩

end Binary

/-- The integer a double converts to within `lo` and `hi`: `rounding` of a finite value, clamped;
an infinity goes to its end of the range, and NaN to zero. -/
def clampedInt (rounding : Binary → Int) (lo hi : Int) (x : Float) : Int :=
  match Binary.ofDouble? x with
  | some b => max lo (min hi (rounding b))
  | none => if x < 0 then lo else if 0 < x then hi else 0

/-- The ends of a signed word of `bits + 1` bits. -/
def signedWord (bits : Nat) : Int × Int :=
  let limit : Int := (1 <<< bits : Nat)
  (-limit, limit - 1)

end ObjectTracking
