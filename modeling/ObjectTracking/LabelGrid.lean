import ObjectTracking.Image.Basic
import ObjectTracking.Label

/-! # Label grids

A label grid is as large as a frame and holds what is known about each of its pixels. It remembers
which cells it wrote, so that a grid of the same size is cleared by one write per remembered cell.
-/

namespace ObjectTracking

/-- What is known about one pixel. -/
inductive Cell where
  /-- The pixel is not looked at on this frame. -/
  | unsampled
  | sampled (label : Label)
  /-- The pixel has become part of a blob. -/
  | claimed
  deriving DecidableEq, Repr, Inhabited

structure LabelGrid where
  cells : Image Cell
  /-- The cells written since the grid was last cleared, in the order of writing. -/
  touched : Array Point

namespace LabelGrid

/-- A grid in which no cell is sampled. -/
def empty (width height : Nat) : LabelGrid := ⟨.filled width height .unsampled, #[]⟩

abbrev width (grid : LabelGrid) : Nat := grid.cells.width

abbrev height (grid : LabelGrid) : Nat := grid.cells.height

/-- The cell at a point; outside the grid nothing is sampled. -/
def get (grid : LabelGrid) (p : Point) : Cell := (grid.cells.get? p).getD .unsampled

/-- Writes a cell. A point outside the grid is ignored. -/
def set : LabelGrid → Point → Cell → LabelGrid
  | ⟨cells, touched⟩, p, cell =>
    if cells.Contains p then
      let first := cells.get? p = some .unsampled ∧ cell ≠ .unsampled
      let touched := if first then touched.push p else touched
      ⟨cells.set p cell, touched⟩
    else ⟨cells, touched⟩

/-- Clears the grid for a frame of the given size. Unless the size changes, only the remembered
cells are written. -/
def reset : LabelGrid → Nat → Nat → LabelGrid
  | ⟨cells, touched⟩, width, height =>
    if cells.width = width ∧ cells.height = height then
      ⟨touched.foldl (fun cells p => cells.set p .unsampled) cells, #[]⟩
    else empty width height

/-! ### Reading after writing -/

@[simp] theorem width_set (grid : LabelGrid) (p : Point) (cell : Cell) :
    (grid.set p cell).width = grid.width := by
  simp only [set, width]; split <;> simp

@[simp] theorem height_set (grid : LabelGrid) (p : Point) (cell : Cell) :
    (grid.set p cell).height = grid.height := by
  simp only [set, height]; split <;> simp

theorem get_set_self {grid : LabelGrid} {p : Point} (h : grid.cells.Contains p) (cell : Cell) :
    (grid.set p cell).get p = cell := by
  simp [set, h, get, Image.get?_set_self h]

theorem get_set_ne {grid : LabelGrid} {p q : Point} (h : p ≠ q) (cell : Cell) :
    (grid.set p cell).get q = grid.get q := by
  simp only [set]
  split
  · simp [get, Image.get?_set_ne h]
  · rfl

theorem contains_of_get_ne {grid : LabelGrid} {p : Point} (h : grid.get p ≠ .unsampled) :
    grid.cells.Contains p := by
  by_cases hp : grid.cells.Contains p
  · exact hp
  · exact absurd (by simp [get, Image.get?, hp]) h

/-! ### Counting cells -/

def count (grid : LabelGrid) (cell : Cell) : Nat := grid.cells.pixels.count cell

/-- Overwriting a cell with another value takes one away from its count. -/
theorem count_set {grid : LabelGrid} {p : Point} {old new : Cell} (held : grid.get p = old)
    (inside : grid.cells.Contains p) (h : new ≠ old) :
    (grid.set p new).count old + 1 = grid.count old := by
  have lt : Image.offset grid.cells.width p.x p.y < grid.cells.pixels.size :=
    grid.cells.size_eq ▸ Image.offset_lt inside.1 inside.2
  have old_eq : grid.cells.pixels[Image.offset grid.cells.width p.x p.y] = old := by
    simpa [get, Image.get?, inside, Image.get] using held
  have pos : 0 < grid.cells.pixels.count old :=
    Array.count_pos_iff.2 (old_eq ▸ Array.getElem_mem lt)
  simp only [count, set, if_pos inside, Image.pixels_set]
  rw [Array.setIfInBounds, dif_pos lt, Array.count_set]
  simp [old_eq, h]
  omega

end LabelGrid

end ObjectTracking
