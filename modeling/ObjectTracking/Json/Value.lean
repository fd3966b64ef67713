import ObjectTracking.Number.Scalar

/-! # JSON values

Values as they stand in a text. Numbers keep their digits, because what a number means depends on
what is asked for: a whole number or a double. A string may be written with half a surrogate pair;
such a string is no text, but the value around it can still be passed over. -/

namespace ObjectTracking

/-- A number literal: its sign, its digits before and after the point, and its exponent. -/
structure JsonNumber where
  negative : Bool
  whole : List Nat
  /-- No digits, if there is no point. -/
  fraction : List Nat
  /-- Whether the exponent is negative, and its digits. -/
  exponent : Option (Bool × List Nat)
  deriving DecidableEq, Repr

/-- A value. Members of an object stay in order, also repeated ones. -/
inductive Json where
  | null
  | bool (value : Bool)
  | number (value : JsonNumber)
  /-- A string, unless it holds half a surrogate pair. -/
  | string (text : Option String)
  | array (items : List Json)
  | object (members : List (Option String × Json))
  deriving Inhabited

namespace JsonNumber

def ofDigits (digits : List Nat) : Nat := digits.foldl (fun n d => n * 10 + d) 0

/-- The literal is made of digits only, but for a sign. -/
def isWhole (n : JsonNumber) : Bool := n.fraction.isEmpty && n.exponent.isNone

/-- A literal of digits only, without a sign, if it is at most `max`. -/
def toNat? (max : Nat) (n : JsonNumber) : Option Nat :=
  let value := ofDigits n.whole
  if n.isWhole && !n.negative && value ≤ max then some value else none

/-- The largest significand that is kept while digits are read. -/
def maxSignificand : Nat := UInt64.size - 1

/-- Takes digits into a significand until the next one would not fit any more; the answer is the
significand and the digits left over. -/
def accumulate (significand : Nat) : List Nat → Nat × List Nat
  | [] => (significand, [])
  | d :: rest =>
    if significand * 10 + d ≤ maxSignificand then accumulate (significand * 10 + d) rest
    else (significand, d :: rest)

/-- The largest power of ten that is a double. -/
def maxPower : Nat := 308

/-- `x * 10 ^ e`, by one multiplication or division for a moderate power. A lower power divides by
the largest power first until nothing is left; a result beyond the doubles is refused. -/
def scale? (x : Float) (e : Int) : Option Float :=
  if 0 ≤ e then
    if x = 0 then some x
    else if maxPower < e then none
    else
      let scaled := x * Float.ofScientific 1 false e.toNat
      if scaled.isInf then none else some scaled
  else if -e ≤ maxPower then some (x / Float.ofScientific 1 false (-e).toNat)
  else if x = 0 then some x
  else scale? (x / Float.ofScientific 1 false maxPower) (e + maxPower)
termination_by (-e).toNat
decreasing_by
  simp only [maxPower] at *
  omega

/-- The double a literal stands for: its leading digits as a 64-bit significand, scaled by a power
of ten. It is refused if it lies beyond the doubles. -/
def toDouble? (n : JsonNumber) : Option Float :=
  let (whole, dropped) := accumulate 0 n.whole
  let (significand, left) := accumulate whole n.fraction
  let taken := n.fraction.length - left.length
  let magnitude :=
    if n.isWhole && dropped.isEmpty then some (Double.ofNat significand)
    else
      let shift : Int := match n.exponent with
        | none => 0
        | some (negative, digits) => if negative then -(ofDigits digits : Int) else ofDigits digits
      scale? (Double.ofNat significand) (dropped.length - taken + shift)
  magnitude.map fun x => if n.negative then -x else x

end JsonNumber

/-! ### Taking values apart -/

namespace Json

def toNat? (max : Nat) : Json → Option Nat
  | number n => n.toNat? max
  | _ => none

def toByte? (j : Json) : Option UInt8 := (j.toNat? 255).map UInt8.ofNat

def toWord? (j : Json) : Option Nat := j.toNat? (UInt64.size - 1)

def toDouble? : Json → Option Float
  | number n => n.toDouble?
  | _ => none

def toText? : Json → Option String
  | string text => text
  | _ => none

/-- The values of the named fields of a record. A record is written as an object, in which each
field stands exactly once and other members are passed over, or as the list of its fields. -/
def fields? (names : List String) : Json → Option (List Json)
  | object members => do
    let named ← members.mapM fun (key, value) => key.map fun name => (name, value)
    names.mapM fun name =>
      match named.filter (·.1 = name) with
      | [(_, value)] => some value
      | _ => none
  | array items => if items.length = names.length then some items else none
  | _ => none

/-- The variant of a choice: an object with the variant's name as its only key. -/
def variant? : Json → Option (String × Json)
  | object [(some name, value)] => some (name, value)
  | _ => none

end Json

end ObjectTracking
