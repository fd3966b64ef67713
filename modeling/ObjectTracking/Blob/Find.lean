import ObjectTracking.Blob.Largest
import ObjectTracking.Sampling

/-! # Finding blobs

The lattice points of a grid are gone through row by row. A point that carries the label looked for
and is not part of a blob yet starts one: the blob grows over the neighbors one stride away in the
four directions until no neighbor is left, and claims every cell it takes. -/

namespace ObjectTracking.LabelGrid

/-- The points one stride below, above, right and left of a point. -/
def neighbors (stride : Nat) (p : Point) : List Point :=
  [⟨p.x, p.y + stride⟩] ++ (if stride ≤ p.y then [⟨p.x, p.y - stride⟩] else []) ++
    [⟨p.x + stride, p.y⟩] ++ (if stride ≤ p.x then [⟨p.x - stride, p.y⟩] else [])

/-- The cell of a sample that belongs to the class. -/
abbrev labelled (classId : UInt8) : Cell := .sampled (.object classId)

/-- Claims a point and appends it to the blob if it carries the label. -/
def claim (classId : UInt8) : LabelGrid × Array Point → Point → LabelGrid × Array Point
  | (grid, points), p =>
    if grid.get p = labelled classId then (grid.set p .claimed, points.push p) else (grid, points)

/-- Claims those of the points that carry the label, one after the other. -/
def claimAll (classId : UInt8) (state : LabelGrid × Array Point) (points : List Point) :
    LabelGrid × Array Point :=
  points.foldl (claim classId) state

/-- What a claim adds to the blob it takes from the grid. -/
theorem count_claim (classId : UInt8) (state : LabelGrid × Array Point) (p : Point) :
    (claim classId state p).1.count (labelled classId) + (claim classId state p).2.size =
      state.1.count (labelled classId) + state.2.size := by
  obtain ⟨grid, points⟩ := state
  simp only [claim]
  split
  · rename_i held
    have inside := contains_of_get_ne (held ▸ (nofun : labelled classId ≠ Cell.unsampled))
    have := count_set held inside (nofun : Cell.claimed ≠ labelled classId)
    simp only [Array.size_push]
    omega
  · rfl

theorem count_claimAll (classId : UInt8) (points : List Point) (state : LabelGrid × Array Point) :
    (claimAll classId state points).1.count (labelled classId) +
      (claimAll classId state points).2.size =
        state.1.count (labelled classId) + state.2.size := by
  induction points generalizing state with
  | nil => rfl
  | cons p rest ih => exact (ih _).trans (count_claim classId state p)

theorem size_le_claimAll (classId : UInt8) (points : List Point)
    (state : LabelGrid × Array Point) : state.2.size ≤ (claimAll classId state points).2.size := by
  induction points generalizing state with
  | nil => exact Nat.le_refl _
  | cons p rest ih =>
    refine Nat.le_trans ?_ (ih _)
    obtain ⟨grid, points⟩ := state
    simp only [claim]
    split <;> simp

/-- Lets a blob grow. The points from `next` on still have to be looked around from. Each step
takes one of them, and whatever it adds is one labelled cell less. -/
def grow (classId : UInt8) (stride : Nat) (grid : LabelGrid) (points : Array Point) (next : Nat) :
    LabelGrid × Array Point :=
  if h : next < points.size then
    let grown := claimAll classId (grid, points) (neighbors stride points[next])
    grow classId stride grown.1 grown.2 (next + 1)
  else (grid, points)
termination_by grid.count (labelled classId) + points.size - next
decreasing_by
  have := count_claimAll classId (neighbors stride points[next]) (grid, points)
  have := size_le_claimAll classId (neighbors stride points[next]) (grid, points)
  simp only at *
  omega

/-- The blob around a labelled point, and the grid with its cells claimed. -/
def fill (classId : UInt8) (stride : Nat) (grid : LabelGrid) (seed : Point) : LabelGrid × Blob :=
  let (grid, points) := grow classId stride (grid.set seed .claimed) #[seed] 0
  (grid, ⟨classId, points⟩)

/-- Looks at one lattice point: it starts a blob if it carries the label. -/
def visit (classId : UInt8) (stride : Nat) : LabelGrid × List Blob → Point → LabelGrid × List Blob
  | (grid, found), p =>
    if grid.get p = labelled classId then
      let (grid, blob) := fill classId stride grid p
      (grid, blob :: found)
    else (grid, found)

/-- All blobs of a class that a lattice point belongs to, in the order of their first lattice
point, and the grid with their cells claimed. -/
def extract (grid : LabelGrid) (classId : UInt8) (phase stride : Nat) : LabelGrid × List Blob :=
  let (grid, found) :=
    (latticePoints phase stride grid.width grid.height).foldl (visit classId stride) (grid, [])
  (grid, found.reverse)

/-- The largest blobs that have enough points. A stride of zero counts as one. The cells of all
blobs are claimed, also those of blobs that are too small or too many. -/
def findBlobs (grid : LabelGrid) (phase stride : Nat) (criteria : BlobCriteria) :
    LabelGrid × List Blob :=
  let (grid, found) := grid.extract criteria.classId phase (max stride 1)
  (grid, Blob.largest criteria.maxBlobs (found.filter (criteria.minPoints ≤ ·.size)))

end ObjectTracking.LabelGrid
