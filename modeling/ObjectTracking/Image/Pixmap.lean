import ObjectTracking.Image.Color

/-! # Portable pixmaps

The simplest form of a picture: `P6`, its width, its height, the number 255, and three bytes for
each pixel. Pictures may follow each other without anything between. -/

namespace ObjectTracking.Pixmap

/-- A byte that separates the numbers of a header. -/
def isBlank (byte : UInt8) : Bool := byte = 32 || 9 ≤ byte && byte ≤ 13

/-- The place of the first byte from `place` on that is not blank. -/
def skipBlanks (bytes : ByteArray) (place : Nat) : Nat :=
  match h : bytes[place]? with
  | some byte => if isBlank byte then skipBlanks bytes (place + 1) else place
  | none => place
termination_by bytes.size - place
decreasing_by
  obtain ⟨lt, _⟩ := getElem?_eq_some_iff.1 h
  omega

/-- The number whose digits begin at `place`, after those of `value`, and the place behind it. -/
def digits (bytes : ByteArray) (place value : Nat) : Nat × Nat :=
  match h : bytes[place]? with
  | some byte =>
    if 48 ≤ byte && byte ≤ 57 then digits bytes (place + 1) (10 * value + (byte.toNat - 48))
    else (value, place)
  | none => (value, place)
termination_by bytes.size - place
decreasing_by
  obtain ⟨lt, _⟩ := getElem?_eq_some_iff.1 h
  omega

/-- A number of the header, behind at least one blank, and the place behind it. -/
def number? (bytes : ByteArray) (place : Nat) : Option (Nat × Nat) :=
  let start := skipBlanks bytes place
  let (value, stop) := digits bytes start 0
  if place < start && start < stop then some (value, stop) else none

def byteAt (bytes : ByteArray) (place : Nat) : UInt8 := bytes[place]?.getD 0

/-- The picture that begins at `place`, and the place behind it. -/
def read? (bytes : ByteArray) (place : Nat) : Option (Image Rgb × Nat) := do
  if bytes[place]? ≠ some 80 || bytes[place + 1]? ≠ some 54 then none
  let (width, behind) ← number? bytes (place + 2)
  let (height, behind) ← number? bytes behind
  let (brightest, behind) ← number? bytes behind
  let start := behind + 1
  let stop := start + 3 * (width * height)
  if brightest ≠ 255 || bytes.size < stop then none
  let pixel (x : Fin width) (y : Fin height) : Rgb :=
    let first := start + 3 * Image.offset width x y
    ⟨byteAt bytes first, byteAt bytes (first + 1), byteAt bytes (first + 2)⟩
  return (.ofFn width height pixel, stop)

/-- All pictures from `place` on, or none if anything else stands among them. -/
def readAll? (bytes : ByteArray) (place : Nat) : Option (List (Image Rgb)) :=
  if place < bytes.size then
    match read? bytes place with
    | some (image, behind) =>
      if _ : place < behind then (readAll? bytes behind).map (image :: ·) else none
    | none => none
  else some []
termination_by bytes.size - place

end ObjectTracking.Pixmap
