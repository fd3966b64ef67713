import Mathlib.Combinatorics.SimpleGraph.Connectivity.Connected
import ObjectTracking.Blob.Find
import ObjectTracking.Proofs.Grid.Representation

/-!
# Regions of labelled cells

The cells that carry the label of a class form a graph (`LabelGrid.regions`): two of them are joined
when they are one stride apart in one direction. `Linked` says the same in steps from cell to cell
(`reachable_iff_linked`). Claiming cells (`Claims`) takes them from the graph; when whole components
are taken, the others stay what they were (`Claims.linked_iff`).
-/

namespace ObjectTracking

/-- The points differ by exactly the stride in exactly one coordinate. -/
def OneStrideApart (stride : Nat) (p q : Point) : Prop :=
  p.x = q.x ∧ (p.y + stride = q.y ∨ q.y + stride = p.y) ∨
    p.y = q.y ∧ (p.x + stride = q.x ∨ q.x + stride = p.x)

theorem OneStrideApart.symm {stride : Nat} {p q : Point} (h : OneStrideApart stride p q) :
    OneStrideApart stride q p := by
  unfold OneStrideApart at *; omega

namespace LabelGrid

theorem mem_neighbors {stride : Nat} {p q : Point} :
    q ∈ neighbors stride p ↔ OneStrideApart stride p q := by
  obtain ⟨x, y⟩ := p
  obtain ⟨x', y'⟩ := q
  simp only [neighbors, OneStrideApart]
  by_cases hy : stride ≤ y <;> by_cases hx : stride ≤ x <;> simp [hx, hy] <;> omega

/-- The grid has the cell, and the cell carries the label of the class. -/
def Carries (grid : LabelGrid) (classId : UInt8) (p : Point) : Prop :=
  grid.cells.get? p = some (labelled classId)

/-- The labelled cells of a class, joined when they are one stride apart. -/
def regions (grid : LabelGrid) (classId : UInt8) (stride : Nat) :
    SimpleGraph {p // grid.Carries classId p} where
  Adj p q := p ≠ q ∧ OneStrideApart stride p q
  symm := ⟨fun _ _ h => ⟨h.1.symm, h.2.symm⟩⟩
  loopless := ⟨fun _ h => h.1 rfl⟩

variable {grid after : LabelGrid} {classId : UInt8} {stride : Nat} {seed p q : Point}

theorem carries_iff : grid.Carries classId p ↔ grid.get p = labelled classId := by
  unfold Carries get
  cases grid.cells.get? p <;> simp

/-! ### What is linked to a cell -/

/-- A labelled cell, seen from a cell next to it. -/
def Link (grid : LabelGrid) (classId : UInt8) (stride : Nat) (p q : Point) : Prop :=
  q ∈ neighbors stride p ∧ grid.get q = labelled classId

/-- A labelled cell that is reached over labelled cells. -/
abbrev Linked (grid : LabelGrid) (classId : UInt8) (stride : Nat) : Point → Point → Prop :=
  Relation.ReflTransGen (grid.Link classId stride)

theorem Linked.held (h : grid.Linked classId stride p q) (held : grid.get p = labelled classId) :
    grid.get q = labelled classId := by
  cases h with
  | refl => exact held
  | tail _ hlink => exact hlink.2

/-- To be reachable in the graph of regions is to be linked. -/
theorem reachable_iff_linked {p q : {p // grid.Carries classId p}} :
    (grid.regions classId stride).Reachable p q ↔ grid.Linked classId stride p q := by
  rw [SimpleGraph.reachable_iff_reflTransGen]
  constructor
  · have step : ∀ a b, (grid.regions classId stride).Adj a b → grid.Link classId stride a b :=
      fun a b hab => ⟨mem_neighbors.2 hab.2, carries_iff.1 b.2⟩
    exact fun h => Relation.ReflTransGen.lift Subtype.val step _ _ h
  · intro h
    suffices ∀ r, grid.Linked classId stride p r →
        ∀ hr, Relation.ReflTransGen (grid.regions classId stride).Adj p ⟨r, hr⟩ from this q h q.2
    intro r hr
    induction hr with
    | refl => exact fun _ => .refl
    | @tail b c hb hlink ih =>
      intro hc
      have carried : grid.Carries classId b :=
        carries_iff.2 (Linked.held hb (carries_iff.1 p.2))
      by_cases hbc : b = c
      · subst hbc; exact ih hc
      · exact (ih carried).tail
          ⟨fun h => hbc (congrArg Subtype.val h), mem_neighbors.1 hlink.1⟩

/-! ### Claiming cells -/

/-- `after` is the grid with exactly the cells of `area` claimed. -/
structure Claims (grid : LabelGrid) (area : Set Point) (after : LabelGrid) : Prop where
  width_eq : after.width = grid.width
  height_eq : after.height = grid.height
  touched_eq : after.touched = grid.touched
  claimed : ∀ p ∈ area, after.get p = .claimed
  kept : ∀ p, p ∉ area → after.get p = grid.get p

namespace Claims
variable {area more : Set Point} {final : LabelGrid}

theorem nothing (grid : LabelGrid) : Claims grid ∅ grid :=
  ⟨rfl, rfl, rfl, fun _ h => h.elim, fun _ _ => rfl⟩

theorem trans (h : Claims grid area after) (h' : Claims after more final) :
    Claims grid (area ∪ more) final where
  width_eq := h'.width_eq.trans h.width_eq
  height_eq := h'.height_eq.trans h.height_eq
  touched_eq := h'.touched_eq.trans h.touched_eq
  claimed p hp := by
    by_cases hm : p ∈ more
    · exact h'.claimed p hm
    · exact (h'.kept p hm).trans (h.claimed p (hp.resolve_right hm))
  kept p hp := (h'.kept p fun hm => hp (.inr hm)).trans (h.kept p fun ha => hp (.inl ha))

theorem congr (h : Claims grid area after) (harea : ∀ p, p ∈ more ↔ p ∈ area) :
    Claims grid more after := by
  rwa [Set.ext harea]

theorem set (held : grid.get p = labelled classId) : Claims grid {p} (grid.set p .claimed) where
  width_eq := width_set ..
  height_eq := height_set ..
  touched_eq := touched_set_of_get_ne (held ▸ nofun) _
  claimed q hq := by
    obtain rfl := Set.mem_singleton_iff.1 hq
    exact get_set_self (contains_of_get_ne (held ▸ nofun)) _
  kept q hq := get_set_ne (fun h => hq h.symm) _

theorem held_iff (h : Claims grid area after) :
    after.get p = labelled classId ↔ p ∉ area ∧ grid.get p = labelled classId := by
  by_cases hp : p ∈ area
  · simp [h.claimed p hp, hp]
  · simp [h.kept p hp, hp]

/-- Once whole components are claimed, the others are what they were. -/
theorem linked_iff (h : Claims grid area after)
    (closed : ∀ p ∈ area, ∀ q, grid.Link classId stride p q → q ∈ area)
    (held : after.get seed = labelled classId) :
    after.Linked classId stride seed q ↔ grid.Linked classId stride seed q := by
  constructor
  · have step : ∀ a b, after.Link classId stride a b → grid.Link classId stride a b :=
      fun a b hlink => ⟨hlink.1, (h.held_iff.1 hlink.2).2⟩
    exact fun h => Relation.ReflTransGen.mono step _ _ h
  · intro hq
    obtain ⟨outside, held'⟩ := h.held_iff.1 held
    -- a way that starts outside of what is claimed stays outside
    suffices q ∉ area ∧ after.Linked classId stride seed q from this.2
    induction hq with
    | refl => exact ⟨outside, .refl⟩
    | @tail b c hb hlink ih =>
      have hc : c ∉ area := fun hc => ih.1 <| closed c hc b
        ⟨mem_neighbors.2 (mem_neighbors.1 hlink.1).symm, Linked.held hb held'⟩
      exact ⟨hc, ih.2.tail ⟨hlink.1, h.held_iff.2 ⟨hc, hlink.2⟩⟩⟩

end Claims

end LabelGrid

end ObjectTracking
