import ObjectTracking.Sampling

/-!
# Lattice points

`latticePoints` goes through the part of a lattice that lies in an area: each of these points
once, and row by row (`mem_latticePoints`, `pairwise_latticePoints`).
-/

namespace ObjectTracking

/-- `p` comes before `q` when an area is read row by row. -/
def Point.Precedes (p q : Point) : Prop := p.y < q.y ∨ p.y = q.y ∧ p.x < q.x

/-- The point lies on the lattice that starts at `phase` in both directions. -/
def OnLattice (phase stride : Nat) (p : Point) : Prop :=
  ∃ i j, p = ⟨phase + i * stride, phase + j * stride⟩

section
variable {phase stride : Nat} (stride_pos : 0 < stride)
include stride_pos

theorem mem_latticeLine {limit x : Nat} :
    x ∈ latticeLine phase stride limit ↔ x < limit ∧ ∃ i, x = phase + i * stride := by
  have below_limit : ∀ i, i < (limit - phase + (stride - 1)) / stride ↔ phase + i * stride < limit := by
    intro i
    rw [Nat.lt_iff_add_one_le, Nat.le_div_iff_mul_le stride_pos, Nat.add_mul]
    omega
  simp only [latticeLine, List.mem_map, List.mem_range]
  constructor
  · rintro ⟨i, hi, rfl⟩
    exact ⟨(below_limit i).1 hi, i, rfl⟩
  · rintro ⟨hx, i, rfl⟩
    exact ⟨i, (below_limit i).2 hx, rfl⟩

theorem pairwise_latticeLine (limit : Nat) :
    (latticeLine phase stride limit).Pairwise (· < ·) := by
  refine List.pairwise_map.2 (List.pairwise_lt_range.imp fun {i j} hij => ?_)
  have := Nat.mul_lt_mul_of_pos_right hij stride_pos
  omega

theorem mem_latticePoints {width height : Nat} {p : Point} :
    p ∈ latticePoints phase stride width height ↔
      OnLattice phase stride p ∧ p.x < width ∧ p.y < height := by
  simp only [latticePoints, List.mem_flatMap, List.mem_map, mem_latticeLine stride_pos]
  constructor
  · rintro ⟨y, ⟨hy, j, rfl⟩, x, ⟨hx, i, rfl⟩, rfl⟩
    exact ⟨⟨i, j, rfl⟩, hx, hy⟩
  · rintro ⟨⟨i, j, rfl⟩, hx, hy⟩
    exact ⟨_, ⟨hy, j, rfl⟩, _, ⟨hx, i, rfl⟩, rfl⟩

theorem pairwise_latticePoints (width height : Nat) :
    (latticePoints phase stride width height).Pairwise Point.Precedes := by
  refine List.pairwise_flatMap.2 ⟨fun y _ => ?_, ?_⟩
  · exact List.pairwise_map.2
      ((pairwise_latticeLine stride_pos width).imp fun hx => .inr ⟨rfl, hx⟩)
  · refine (pairwise_latticeLine stride_pos height).imp fun hy p hp q hq => ?_
    obtain ⟨_, _, rfl⟩ := List.mem_map.1 hp
    obtain ⟨_, _, rfl⟩ := List.mem_map.1 hq
    exact .inl hy

end

end ObjectTracking
