import ObjectTracking.Image.Basic

/-! # Convex hulls

The hull of a list of points: the lowest point first, then the corners in the order of their
direction seen from it. Points inside a side are no corners. -/

namespace ObjectTracking

/-- A point of the plane with whole coordinates. -/
structure Vertex where
  x : Int
  y : Int
  deriving DecidableEq, Repr, Inhabited

namespace Vertex

/-- A point of an image, its coordinates taken as signed 32-bit words. -/
def ofPoint (p : Point) : Vertex := ⟨Int.bmod p.x UInt32.size, Int.bmod p.y UInt32.size⟩

/-- Which way the path `p`, `q`, `r` bends: positive toward growing angles, zero if straight. -/
def turn (p q r : Vertex) : Int := (q.x - p.x) * (r.y - q.y) - (q.y - p.y) * (r.x - q.x)

def distanceSq (p q : Vertex) : Int := (q.x - p.x) * (q.x - p.x) + (q.y - p.y) * (q.y - p.y)

/-- `p` has the smaller `y`, or the same and the smaller `x`. -/
def lower (p q : Vertex) : Bool := p.y < q.y || p.y == q.y && p.x < q.x

def lowest (first : Vertex) (rest : List Vertex) : Vertex :=
  rest.foldl (fun low p => if p.lower low then p else low) first

/-- Seen from `pivot`, `p` has a smaller angle than `q`, or the same and is nearer. -/
def earlier (pivot p q : Vertex) : Bool :=
  0 < turn pivot p q || turn pivot p q == 0 && distanceSq pivot p < distanceSq pivot q

/-- Of neighbors in the list that lie in one direction from `pivot`, only the last. -/
def farthestOnly (pivot : Vertex) : List Vertex → List Vertex
  | p :: q :: rest =>
    if turn pivot p q = 0 then farthestOnly pivot (q :: rest)
    else p :: farthestOnly pivot (q :: rest)
  | rest => rest

/-- Adds a corner to a path, its last corner first: corners at which the path would not bend
strictly toward growing angles are taken back. -/
def extend : List Vertex → Vertex → List Vertex
  | last :: previous :: path, p =>
    if turn previous last p ≤ 0 then extend (previous :: path) p
    else p :: last :: previous :: path
  | path, p => p :: path

/-- The corners of the convex hull, from the lowest point on. -/
def hull : List Vertex → List Vertex
  | [] => []
  | first :: rest =>
    let pivot := lowest first rest
    let others := ((first :: rest).erase pivot).mergeSort fun p q => !earlier pivot q p
    ((farthestOnly pivot others).foldl extend [pivot]).reverse

end Vertex

end ObjectTracking
