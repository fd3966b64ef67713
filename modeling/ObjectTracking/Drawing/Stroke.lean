import ObjectTracking.Image.Basic
import ObjectTracking.Number.Binary

/-! # Strokes

Circles, discs and straight lines as lists of pixel coordinates in the order in which they are
drawn. Coordinates are signed: a stroke may leave the image, and what is outside is not drawn. -/

namespace ObjectTracking

/-- The coordinates of a pixel, perhaps outside the image. -/
abbrev PixelAt := Int × Int

namespace Stroke

def draw {α : Type} (image : Image α) (value : α) (stroke : List PixelAt) : Image α :=
  stroke.foldl (fun image at_ => image.plot value at_) image

/-- The pixels of row `y` from `first` to `last`. -/
def row (first last y : Int) : List PixelAt :=
  (List.range (last + 1 - first).toNat).map fun (i : Nat) => (first + i, y)

/-- Follows an eighth of a circle: the offsets `(x, y)` with `x ≤ y`, in reverse order before
`found`. `p` is the decision value: once it is not negative, `y` comes one step in. -/
def octantFrom (x y p : Int) (found : List PixelAt) : List PixelAt :=
  if x ≤ y then
    if p < 0 then octantFrom (x + 1) y (p + 2 * (x + 1) + 1) ((x, y) :: found)
    else octantFrom (x + 1) (y - 1) (p + 2 * (x + 1 - (y - 1)) + 1) ((x, y) :: found)
  else found
termination_by (y + 1 - x).toNat

def octant (radius : Int) : List PixelAt := (octantFrom 0 radius (1 - radius) []).reverse

def circle (center : PixelAt) (radius : Int) : List PixelAt :=
  let (cx, cy) := center
  (octant radius).flatMap fun (x, y) =>
    [(cx + x, cy + y), (cx + y, cy + x), (cx - y, cy + x), (cx - x, cy + y),
      (cx - x, cy - y), (cx - y, cy - x), (cx + y, cy - x), (cx + x, cy - y)]

def disc (center : PixelAt) (radius : Int) : List PixelAt :=
  let (cx, cy) := center
  (octant radius).flatMap fun (x, y) =>
    row (cx - x) (cx + x) (cy + y) ++ row (cx - y) (cx + y) (cy + x) ++
      row (cx - x) (cx + x) (cy - y) ++ row (cx - y) (cx + y) (cy - x)

/-- A number as a signed 32-bit coordinate. -/
def coordinate (rounding : Binary → Int) (x : Float) : Int :=
  clampedInt rounding (signedWord 31).1 (signedWord 31).2 x

/-- Steps along the longer axis of a line, the pixels in reverse order before `found`. The error is
what is left until the next step across. -/
def lineFrom (dx dy : Float32) (acrossStep : Int) :
    (steps : Nat) → (along across : Int) → (error : Float32) → List PixelAt → List PixelAt
  | 0, _, _, _, found => found
  | steps + 1, along, across, error, found =>
    let left := error - dy
    let found := (along, across) :: found
    if left < 0 then
      lineFrom dx dy acrossStep steps (along + 1) (across + acrossStep) (left + dx) found
    else lineFrom dx dy acrossStep steps (along + 1) across left found

/-- A straight line. It goes along the axis in which it is longer, in the direction in which that
coordinate grows, and starts and ends at the integer parts of its ends. -/
def line (start finish : Float32 × Float32) : List PixelAt :=
  let steep := (finish.1 - start.1).abs < (finish.2 - start.2).abs
  let turned (p : Float32 × Float32) : Float32 × Float32 := if steep then (p.2, p.1) else p
  let a := turned start
  let b := turned finish
  let (a, b) := if b.1 < a.1 then (b, a) else (a, b)
  let whole (x : Float32) : Int := coordinate Binary.truncate x.toFloat
  let first := whole a.1
  let dx := b.1 - a.1
  let points := (lineFrom dx (b.2 - a.2).abs (if a.2 < b.2 then 1 else -1)
    (whole b.1 + 1 - first).toNat first (whole a.2) (dx / 2) []).reverse
  if steep then points.map fun (along, across) => (across, along) else points

end Stroke

end ObjectTracking
