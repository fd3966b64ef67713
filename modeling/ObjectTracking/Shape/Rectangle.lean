import ObjectTracking.Number.Scalar
import ObjectTracking.Shape.Hull

/-! # The smallest rectangle around points

Each side of the convex hull proposes a direction; the rectangle along it is measured over all
points, so it encloses every one of them. The smallest wins, the first of nearly equal ones. -/

namespace ObjectTracking

/-- A rectangle in any direction: `width` runs along `angle`, `height` across it. -/
structure TiltedRect (α : Type) where
  centerX : α
  centerY : α
  width : α
  height : α
  angle : α
  deriving Repr

namespace TiltedRect
variable {α : Type} [Scalar α]
open Scalar

abbrev Position (α : Type) := α × α

def ofInt (n : Int) : α := if n < 0 then -ofNat n.natAbs else ofNat n.natAbs

/-- The rectangle without extent around a position. -/
def dot (p : Position α) : TiltedRect α := ⟨p.1, p.2, ofNat 0, ofNat 0, ofNat 0⟩

def extent (first : α) (rest : List α) : α × α :=
  rest.foldl (fun range x => (least range.1 x, greatest range.2 x)) (first, first)

/-- The rectangle around points along the unit vector `(ux, uy)`. -/
def along (ux uy : α) (first : Position α) (rest : List (Position α)) : TiltedRect α :=
  let nx := -uy
  let ny := ux
  let lengthwise (p : Position α) : α := p.1 * ux + p.2 * uy
  let crosswise (p : Position α) : α := p.1 * nx + p.2 * ny
  let u := extent (lengthwise first) (rest.map lengthwise)
  let n := extent (crosswise first) (rest.map crosswise)
  let middleU := (u.1 + u.2) / ofNat 2
  let middleN := (n.1 + n.2) / ofNat 2
  { centerX := middleU * ux + middleN * nx
    centerY := middleU * uy + middleN * ny
    width := u.2 - u.1
    height := n.2 - n.1
    angle := atan2 uy ux }

def area (rect : TiltedRect α) : α := rect.width * rect.height

/-- How much smaller a rectangle has to be to take the place of an earlier one, and how long a side
of the hull has to be to have a direction. -/
def slack : α := decimal 1 9

/-- The rectangle along one side of a hull, unless the side has no length. -/
def alongSide? (side : Vertex × Vertex) (first : Position α) (rest : List (Position α)) :
    Option (TiltedRect α) :=
  let dx : α := ofInt side.2.x - ofInt side.1.x
  let dy : α := ofInt side.2.y - ofInt side.1.y
  let length := hypot dx dy
  if lt length slack then none else some (along (dx / length) (dy / length) first rest)

/-- The better of a rectangle and one that comes later. -/
def better (best : Option (TiltedRect α)) (rect : TiltedRect α) : Option (TiltedRect α) :=
  match best with
  | none => some rect
  | some held => if lt rect.area (held.area - slack) then some rect else some held

/-- The sides of a polygon, the last of which leads back to its first corner. -/
def sides (corners : List Vertex) : List (Vertex × Vertex) :=
  corners.zip (corners.drop 1 ++ corners.take 1)

/-- The smallest rectangle around points along a side of the given polygon. Without a side that has
a length, all points are taken to coincide with the first. -/
def smallestAlong (corners : List Vertex) (first : Position α) (rest : List (Position α)) :
    TiltedRect α :=
  let candidates := (sides corners).filterMap fun side => alongSide? side first rest
  (candidates.foldl better none).getD (dot first)

def positionOf (p : Point) : Position α := (ofNat p.x, ofNat p.y)

/-- The smallest rectangle around points; around no points, the dot at the origin. -/
def around : List Point → TiltedRect α
  | [] => dot (ofNat 0, ofNat 0)
  | first :: rest =>
    smallestAlong (Vertex.hull ((first :: rest).map Vertex.ofPoint)) (positionOf first)
      (rest.map positionOf)

end TiltedRect

end ObjectTracking
