import Mathlib.Data.List.Nodup
import ObjectTracking.Proofs.Grid.Representation

/-!
# Whatever is done to a label grid

A grid is made, written to and cleared, in any order. Through all of it the grid is valid and reads
as what was last written since it was cleared (`LabelGrid.Records`), so that clearing always gives a
new grid. A cell that is written back to unsampled is remembered all the same, and once more when it
is written again; as long as this does not happen, there is one memory for each cell that is not
unsampled (`LabelGrid.RemembersOnce`).
-/

namespace ObjectTracking

inductive GridCall where
  | new (width height : Nat)
  | set (p : Point) (cell : Cell)
  | reset (width height : Nat)
  deriving DecidableEq, Repr

/-- What calls amount to: the size of the grid, and the writes since it was last cleared, the latest
first. -/
structure GridLog where
  width : Nat
  height : Nat
  writes : List (Point × Cell)

namespace GridLog

def Inside (log : GridLog) (p : Point) : Prop := p.x < log.width ∧ p.y < log.height

instance (log : GridLog) (p : Point) : Decidable (log.Inside p) :=
  inferInstanceAs (Decidable (_ ∧ _))

/-- The last value written to a point, if it lies inside. -/
def last? (log : GridLog) (p : Point) : Option Cell :=
  if log.Inside p then (log.writes.find? (·.1 = p)).map (·.2) else none

def call (log : GridLog) : GridCall → GridLog
  | .set p cell => { log with writes := (p, cell) :: log.writes }
  | .new width height | .reset width height => ⟨width, height, []⟩

/-- What calls on a new grid of the given size amount to. -/
def ofCalls (width height : Nat) (calls : List GridCall) : GridLog :=
  calls.foldl call ⟨width, height, []⟩

/-- Nothing was written back to unsampled since the grid was last cleared. -/
def Forward (log : GridLog) : Prop := ∀ write ∈ log.writes, log.Inside write.1 → write.2 ≠ .unsampled

instance (log : GridLog) : Decidable log.Forward :=
  inferInstanceAs (Decidable (∀ write ∈ _, _ → _))

theorem last?_set (log : GridLog) (p q : Point) (cell : Cell) :
    (log.call (.set p cell)).last? q =
      if q = p ∧ log.Inside p then some cell else log.last? q := by
  have inside : (log.call (.set p cell)).Inside q ↔ log.Inside q := Iff.rfl
  simp only [last?, inside]
  by_cases same : q = p
  · subst same
    by_cases here : log.Inside q <;> simp [call, here]
  · by_cases here : log.Inside q <;> simp [call, here, same, Ne.symm same]

end GridLog

namespace LabelGrid
variable {grid : LabelGrid} {log : GridLog}

def call (grid : LabelGrid) : GridCall → LabelGrid
  | .new width height => empty width height
  | .set p cell => grid.set p cell
  | .reset width height => grid.reset width height

/-- The grid after some calls, one after the other. -/
def afterCalls (grid : LabelGrid) (calls : List GridCall) : LabelGrid := calls.foldl call grid

/-- How many cells are not unsampled. -/
def written (grid : LabelGrid) : Nat := grid.cells.pixels.countP (· ≠ .unsampled)

/-! ### What is read -/

/-- The grid is what the calls amount to. -/
structure Records (grid : LabelGrid) (log : GridLog) : Prop where
  width_eq : grid.width = log.width
  height_eq : grid.height = log.height
  valid : grid.Valid
  get_eq : ∀ p, grid.get p = (log.last? p).getD .unsampled

namespace Records

theorem contains_iff (h : grid.Records log) {p : Point} :
    grid.cells.Contains p ↔ log.Inside p := by
  rw [Image.Contains, GridLog.Inside, ← h.width_eq, ← h.height_eq]

theorem empty (width height : Nat) : (LabelGrid.empty width height).Records ⟨width, height, []⟩ where
  width_eq := rfl
  height_eq := rfl
  valid := .empty ..
  get_eq p := by simp [GridLog.last?]

theorem set (h : grid.Records log) (p : Point) (cell : Cell) :
    (grid.set p cell).Records (log.call (.set p cell)) where
  width_eq := (grid.width_set p cell).trans h.width_eq
  height_eq := (grid.height_set p cell).trans h.height_eq
  valid := h.valid.set p cell
  get_eq q := by
    simp only [get_set, GridLog.last?_set, h.contains_iff]
    split
    · rfl
    · exact h.get_eq q

theorem call (h : grid.Records log) (c : GridCall) : (grid.call c).Records (log.call c) := by
  cases c with
  | new width height => exact .empty width height
  | set p cell => exact h.set p cell
  | reset width height =>
    rw [LabelGrid.call, h.valid.reset_eq_empty]
    exact .empty width height

theorem afterCalls (h : grid.Records log) (calls : List GridCall) :
    (grid.afterCalls calls).Records (calls.foldl GridLog.call log) := by
  induction calls generalizing grid log with
  | nil => exact h
  | cons c rest ih => exact ih (h.call c)

end Records

/-! ### What is remembered -/

theorem touched_set_of_unsampled {p : Point} {cell : Cell} (inside : grid.cells.Contains p)
    (held : grid.get p = .unsampled) (h : cell ≠ .unsampled) :
    (grid.set p cell).touched = grid.touched.push p := by
  have held : grid.cells.get? p = some .unsampled := by
    simpa [get, Image.get?, inside] using held
  simp [set, inside, held, h]

theorem count_set_of_ne {p : Point} {cell counted : Cell} (held : grid.get p ≠ counted)
    (h : cell ≠ counted) : (grid.set p cell).count counted = grid.count counted := by
  by_cases inside : grid.cells.Contains p
  · have lt : Image.offset grid.cells.width p.x p.y < grid.cells.pixels.size :=
      grid.cells.size_eq ▸ Image.offset_lt inside.1 inside.2
    have held : grid.cells.pixels[Image.offset grid.cells.width p.x p.y] ≠ counted := by
      simpa [get, Image.get?, inside, Image.get] using held
    simp only [count, set, if_pos inside, Image.pixels_set]
    rw [Array.setIfInBounds, dif_pos lt, Array.count_set]
    simp [held, h]
  · rw [set, if_neg inside]

/-- One memory for each cell that is not unsampled. -/
structure RemembersOnce (grid : LabelGrid) : Prop where
  nodup : grid.touched.toList.Nodup
  sampled : ∀ p ∈ grid.touched, grid.get p ≠ .unsampled
  size_eq : grid.touched.size + grid.count .unsampled = grid.width * grid.height

namespace RemembersOnce

theorem empty (width height : Nat) : (LabelGrid.empty width height).RemembersOnce where
  nodup := .nil
  sampled _ hp := absurd hp (by simp [LabelGrid.empty])
  size_eq := by simp [LabelGrid.empty, count, Image.filled]

/-- What is there is overwritten, or a cell is written for the first time. -/
theorem set (h : grid.RemembersOnce) {p : Point} {cell : Cell}
    (forward : grid.cells.Contains p → cell ≠ .unsampled) : (grid.set p cell).RemembersOnce := by
  by_cases inside : grid.cells.Contains p
  · have forward := forward inside
    have still : ∀ q, grid.get q ≠ .unsampled → (grid.set p cell).get q ≠ .unsampled := by
      intro q hq
      rw [get_set]
      split <;> assumption
    have area_eq : (grid.set p cell).width * (grid.set p cell).height =
        grid.width * grid.height := by
      rw [width_set, height_set]
    by_cases held : grid.get p = .unsampled
    · have new : p ∉ grid.touched := fun hp => h.sampled p hp held
      have touched_eq := touched_set_of_unsampled inside held forward
      refine ⟨?nodup, fun q hq => ?sampled, ?size_eq⟩
      case nodup =>
        rw [touched_eq, Array.toList_push]
        refine h.nodup.append (List.nodup_singleton p) (List.disjoint_singleton.2 ?_)
        exact fun hp => new (Array.mem_toList_iff.1 hp)
      case sampled =>
        rw [touched_eq] at hq
        rcases Array.mem_push.1 hq with hq | rfl
        · exact still q (h.sampled q hq)
        · rwa [get_set_self inside]
      case size_eq =>
        have fewer := count_set held inside forward
        have size_eq := h.size_eq
        rw [touched_eq, Array.size_push, area_eq]
        omega
    · have touched_eq := touched_set_of_get_ne held cell
      refine ⟨touched_eq ▸ h.nodup, fun q hq => still q (h.sampled q (touched_eq ▸ hq)), ?_⟩
      rw [touched_eq, count_set_of_ne held forward, area_eq, h.size_eq]
  · rwa [LabelGrid.set, if_neg inside]

theorem written_eq (h : grid.RemembersOnce) : grid.touched.size = grid.written := by
  have parts : grid.count .unsampled + grid.written = grid.width * grid.height := by
    rw [← grid.cells.size_eq, Array.size_eq_countP_add_countP (p := (· == Cell.unsampled))]
    simp [count, written, Array.count]
  have := h.size_eq
  omega

/-- No two memories are of one place in the array of cells. -/
theorem nodup_offsets (h : grid.RemembersOnce) (valid : grid.Valid) :
    (grid.touched.toList.map fun p => Image.offset grid.width p.x p.y).Nodup := by
  refine h.nodup.map_on fun p hp q hq same => ?_
  exact Image.offset_inj (valid.inside p (Array.mem_toList_iff.1 hp)).1
    (valid.inside q (Array.mem_toList_iff.1 hq)).1 same

end RemembersOnce

theorem Records.remembersOnce_call (h : grid.Records log)
    (once : log.Forward → grid.RemembersOnce) (c : GridCall) (forward : (log.call c).Forward) :
    (grid.call c).RemembersOnce := by
  cases c with
  | new width height => exact .empty width height
  | set p cell =>
    obtain ⟨here, before⟩ := List.forall_mem_cons.1 forward
    exact (once before).set fun inside => here (h.contains_iff.1 inside)
  | reset width height =>
    rw [LabelGrid.call, h.valid.reset_eq_empty]
    exact .empty width height

theorem Records.remembersOnce_afterCalls (h : grid.Records log)
    (once : log.Forward → grid.RemembersOnce) (calls : List GridCall)
    (forward : (calls.foldl GridLog.call log).Forward) : (grid.afterCalls calls).RemembersOnce := by
  induction calls generalizing grid log with
  | nil => exact once forward
  | cons c rest ih => exact ih (h.call c) (h.remembersOnce_call once c) forward

/-- However a grid was made, written to and cleared: it has a cell for each point, remembers only
cells it has and all that are not unsampled, and reads as what was last written since it was cleared.
Clearing it for any size makes a new grid, in which nothing is sampled or remembered. And unless a
cell was written back to unsampled since, no cell is remembered twice, and those remembered are as
many as those that are not unsampled. -/
theorem afterCalls_represents (width height : Nat) (calls : List GridCall) :
    let grid := (empty width height).afterCalls calls
    let log := GridLog.ofCalls width height calls
    (grid.width = log.width ∧ grid.height = log.height ∧
      grid.cells.pixels.size = grid.width * grid.height) ∧
    (∀ p ∈ grid.touched, grid.cells.Contains p ∧
      Image.offset grid.width p.x p.y < grid.cells.pixels.size) ∧
    (∀ p, grid.get p ≠ .unsampled → p ∈ grid.touched) ∧
    (∀ p, grid.get p = (log.last? p).getD .unsampled) ∧
    (∀ width' height', grid.reset width' height' = empty width' height' ∧
      (∀ p, (grid.reset width' height').get p = .unsampled) ∧
      (grid.reset width' height').touched.size = 0) ∧
    (log.Forward →
      (grid.touched.toList.map fun p => Image.offset grid.width p.x p.y).Nodup ∧
      grid.touched.size = grid.written) := by
  intro grid log
  have start := Records.empty width height
  have records : grid.Records log := start.afterCalls calls
  refine ⟨⟨records.width_eq, records.height_eq, grid.cells.size_eq⟩, fun p hp => ?range,
    records.valid.remembered, records.get_eq, fun width' height' => ?reset, fun forward => ?once⟩
  case range =>
    have inside := records.valid.inside p hp
    exact ⟨inside, grid.cells.size_eq ▸ Image.offset_lt inside.1 inside.2⟩
  case reset =>
    rw [records.valid.reset_eq_empty]
    exact ⟨rfl, fun p => get_empty .., rfl⟩
  case once =>
    have once : grid.RemembersOnce :=
      start.remembersOnce_afterCalls (fun _ => .empty width height) calls forward
    exact ⟨once.nodup_offsets records.valid, once.written_eq⟩

/-- A cell is labelled and then claimed, in a grid that had another size before; a point outside is
written to unsampled, which is no matter. -/
theorem afterCalls_represents_claimed :
    let calls : List GridCall := [.set ⟨0, 0⟩ .claimed, .reset 2 1,
      .set ⟨1, 0⟩ (.sampled .nothing), .set ⟨1, 0⟩ .claimed, .set ⟨0, 5⟩ .unsampled]
    let grid := (empty 1 2).afterCalls calls
    (GridLog.ofCalls 1 2 calls).Forward ∧ grid.get ⟨1, 0⟩ = .claimed ∧ grid.touched.size = 1 ∧
      grid.written = 1 := by
  intro calls grid
  have forward : (GridLog.ofCalls 1 2 calls).Forward := by decide
  obtain ⟨-, -, -, get_eq, -, once⟩ := afterCalls_represents 1 2 calls
  have written_eq : grid.touched.size = grid.written := (once forward).2
  exact ⟨forward, get_eq ⟨1, 0⟩, rfl, written_eq.symm⟩

/-- Written back to unsampled, the cell is remembered a second time. -/
example : ((empty 1 1).afterCalls
    [.set ⟨0, 0⟩ .claimed, .set ⟨0, 0⟩ .unsampled, .set ⟨0, 0⟩ .claimed]).touched =
      #[⟨0, 0⟩, ⟨0, 0⟩] := rfl

end LabelGrid

end ObjectTracking
