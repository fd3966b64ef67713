import Mathlib.Tactic.Common
import ObjectTracking.LabelGrid

/-!
# What a label grid remembers

`LabelGrid.Valid`: a grid remembers every cell that is not unsampled, and only cells that it has.
Writing keeps this, so that clearing the remembered cells clears the grid: a cleared grid is an
empty one, down to its representation (`LabelGrid.Valid.reset_eq_empty`).
-/

namespace ObjectTracking

namespace Image
variable {α : Type}

theorem getElem?_pixels (image : Image α) {i : Nat} (hi : i < image.pixels.size) :
    image.pixels[i]? = image.get? ⟨i % image.width, i / image.width⟩ := by
  have lt := image.size_eq ▸ hi
  have width_pos : 0 < image.width := Nat.pos_of_ne_zero fun h => by simp [h] at lt
  have inside : image.Contains ⟨i % image.width, i / image.width⟩ :=
    ⟨Nat.mod_lt _ width_pos, Nat.div_lt_of_lt_mul lt⟩
  rw [get?_eq, if_pos inside, offset, Nat.mul_comm, Nat.div_add_mod]

/-- An image is determined by its size and its pixels. -/
theorem ext_get? {a b : Image α} (hw : a.width = b.width) (hh : a.height = b.height)
    (h : ∀ p, a.get? p = b.get? p) : a = b := by
  have size_eq : a.pixels.size = b.pixels.size := by rw [a.size_eq, b.size_eq, hw, hh]
  have pixels_eq : a.pixels = b.pixels := by
    refine Array.ext size_eq fun i ha hb => Option.some.inj ?_
    rw [← Array.getElem?_eq_getElem ha, ← Array.getElem?_eq_getElem hb, getElem?_pixels a ha,
      getElem?_pixels b hb, hw, h]
  cases a; cases b; simp_all

theorem get?_eq_none {image : Image α} {p : Point} : image.get? p = none ↔ ¬ image.Contains p := by
  unfold get?; split <;> simp [*]

@[simp] theorem get?_filled (width height : Nat) (value : α) (p : Point) :
    (filled width height value).get? p =
      if p.x < width ∧ p.y < height then some value else none := by
  rw [get?_eq]
  by_cases h : p.x < width ∧ p.y < height
  · rw [if_pos h, if_pos (show (filled width height value).Contains p from h)]
    simp [filled, offset_lt h.1 h.2]
  · rw [if_neg h, if_neg (show ¬ (filled width height value).Contains p from h)]

end Image

namespace LabelGrid
variable {grid : LabelGrid}

@[simp] theorem get_empty (width height : Nat) (p : Point) :
    (empty width height).get p = .unsampled := by
  simp only [get, empty, Image.get?_filled]; split <;> rfl

theorem get_set (grid : LabelGrid) (p q : Point) (cell : Cell) :
    (grid.set p cell).get q = if q = p ∧ grid.cells.Contains p then cell else grid.get q := by
  by_cases h : q = p
  · subst h
    by_cases inside : grid.cells.Contains q
    · rw [if_pos ⟨rfl, inside⟩, get_set_self inside]
    · rw [if_neg fun h => inside h.2, set, if_neg inside]
  · rw [if_neg fun hq => h hq.1, get_set_ne (Ne.symm h)]

theorem touched_set_of_get_ne {p : Point} (h : grid.get p ≠ .unsampled) (cell : Cell) :
    (grid.set p cell).touched = grid.touched := by
  have held : grid.cells.get? p ≠ some .unsampled := fun held => h (by simp [get, held])
  simp only [set, held]
  split <;> simp

theorem mem_touched_set {p q : Point} {cell : Cell} :
    q ∈ (grid.set p cell).touched ↔
      q ∈ grid.touched ∨
        q = p ∧ grid.cells.Contains p ∧ grid.get p = .unsampled ∧ cell ≠ .unsampled := by
  by_cases inside : grid.cells.Contains p
  · have held : grid.cells.get? p = some .unsampled ↔ grid.get p = .unsampled := by
      simp [get, Image.get?, inside]
    simp only [set, inside, if_true, held]
    split <;> simp_all
  · simp [set, inside]

/-- The grid remembers every cell that is not unsampled, and remembers no cell it does not have. -/
structure Valid (grid : LabelGrid) : Prop where
  inside : ∀ p ∈ grid.touched, grid.cells.Contains p
  remembered : ∀ p, grid.get p ≠ .unsampled → p ∈ grid.touched

namespace Valid

theorem empty (width height : Nat) : (LabelGrid.empty width height).Valid :=
  ⟨fun _ hp => absurd hp (by simp [LabelGrid.empty]), fun p hp => absurd (get_empty ..) hp⟩

theorem set (h : grid.Valid) (p : Point) (cell : Cell) : (grid.set p cell).Valid := by
  have contains : ∀ q, (grid.set p cell).cells.Contains q ↔ grid.cells.Contains q := fun q => by
    simp only [LabelGrid.set]; split <;> simp
  refine ⟨fun q hq => (contains q).2 ?_, fun q hq => mem_touched_set.2 ?_⟩
  · rcases mem_touched_set.1 hq with hq | ⟨rfl, inside, -⟩
    exacts [h.inside q hq, inside]
  · rw [get_set] at hq
    split at hq
    · rename_i here
      by_cases held : grid.get p = .unsampled
      · exact .inr ⟨here.1, here.2, held, hq⟩
      · exact .inl (here.1 ▸ h.remembered p held)
    · exact .inl (h.remembered q hq)

end Valid

theorem get?_clear (points : List Point) (cells : Image Cell) (q : Point) :
    (points.foldl (fun cells p => cells.set p .unsampled) cells).get? q =
      if q ∈ points ∧ cells.Contains q then some .unsampled else cells.get? q := by
  induction points generalizing cells with
  | nil => simp
  | cons p rest ih =>
    simp only [List.foldl_cons, ih, Image.contains_set]
    by_cases inside : cells.Contains q
    · by_cases hq : q = p
      · subst hq
        simp [inside, Image.get?_set_self inside]
      · simp [inside, hq, Image.get?_set_ne (Ne.symm hq)]
    · simp [inside, Image.get?_eq_none.2]

theorem size_clear (points : List Point) (cells : Image Cell) :
    (points.foldl (fun cells p => cells.set p .unsampled) cells).width = cells.width ∧
      (points.foldl (fun cells p => cells.set p .unsampled) cells).height = cells.height := by
  induction points generalizing cells with
  | nil => exact ⟨rfl, rfl⟩
  | cons p rest ih => simpa using ih (cells.set p .unsampled)

/-- Clearing the remembered cells of a valid grid is as good as making a new one. -/
theorem Valid.reset_eq_empty (h : grid.Valid) (width height : Nat) :
    grid.reset width height = LabelGrid.empty width height := by
  obtain ⟨cells, touched⟩ := grid
  simp only [reset]
  split
  · rename_i same
    obtain ⟨rfl, rfl⟩ := same
    have size := size_clear touched.toList cells
    simp only [LabelGrid.empty, mk.injEq, and_true, ← Array.foldl_toList]
    refine Image.ext_get? size.1 size.2 fun p => ?_
    rw [get?_clear, Image.get?_filled]
    by_cases inside : cells.Contains p
    · rw [if_pos (show p.x < _ ∧ p.y < _ from inside)]
      by_cases hp : p ∈ touched.toList
      · rw [if_pos ⟨hp, inside⟩]
      · rw [if_neg fun h => hp h.1]
        have clear : get ⟨cells, touched⟩ p = .unsampled := by
          by_contra held
          exact hp (Array.mem_toList_iff.2 (h.remembered p held))
        simpa [get, Image.get?, inside] using clear
    · rw [if_neg fun h => inside h.2, if_neg (show ¬ (p.x < _ ∧ p.y < _) from inside)]
      exact Image.get?_eq_none.2 inside
  · rfl

end LabelGrid

end ObjectTracking
