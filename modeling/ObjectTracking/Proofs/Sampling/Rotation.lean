import Mathlib.Data.List.Basic
import Mathlib.Data.Nat.ModEq
import Mathlib.Logic.Function.Iterate
import ObjectTracking.Proofs.Grid.Lattice

/-!
# One round of phases

The lattices of the phases share no point, and each position whose coordinates leave the same
remainder is on one of them (`onLattice_iff`). Advancing goes through the phases in turn
(`Scanner.phase_iterate`), so in as many frames as there are phases every such position of an area
is sampled exactly once (`Scanner.round_of_reached`).
-/

namespace ObjectTracking

/-- A phase below the stride is what remains of both coordinates of its lattice points. -/
theorem onLattice_iff {phase stride : Nat} (phase_lt : phase < stride) {p : Point} :
    OnLattice phase stride p ↔ p.x % stride = phase ∧ p.y % stride = phase := by
  constructor
  · rintro ⟨i, j, rfl⟩
    simp [Nat.mod_eq_of_lt phase_lt]
  · rintro ⟨x_mod, y_mod⟩
    have x_eq : phase + p.x / stride * stride = p.x := x_mod ▸ Nat.mod_add_div' p.x stride
    have y_eq : phase + p.y / stride * stride = p.y := y_mod ▸ Nat.mod_add_div' p.y stride
    exact ⟨p.x / stride, p.y / stride, by rw [x_eq, y_eq]⟩

namespace Scanner

@[simp] theorem stride_iterate (scanner : Scanner) (n : Nat) :
    (advance^[n] scanner).stride = scanner.stride := by
  induction n with
  | zero => rfl
  | succ n ih =>
    rw [Function.iterate_succ_apply']
    exact ih

theorem phase_iterate (scanner : Scanner) (n : Nat) :
    (advance^[n] scanner).phase = (scanner.phase + n) % scanner.stride := by
  induction n with
  | zero => exact (Nat.mod_eq_of_lt scanner.phase_lt).symm
  | succ n ih =>
    rw [Function.iterate_succ_apply']
    show ((advance^[n] scanner).phase + 1) % (advance^[n] scanner).stride = _
    rw [ih, stride_iterate, Nat.mod_add_mod, Nat.add_assoc]

/-- Every phase comes up within one round. -/
theorem exists_phase_iterate (scanner : Scanner) {phase : Nat} (phase_lt : phase < scanner.stride) :
    ∃ i < scanner.stride, (advance^[i] scanner).phase = phase := by
  have stride_pos : 0 < scanner.stride := Nat.zero_lt_of_lt phase_lt
  refine ⟨(phase + (scanner.stride - scanner.phase)) % scanner.stride, Nat.mod_lt _ stride_pos, ?_⟩
  have whole : scanner.phase + (phase + (scanner.stride - scanner.phase)) =
      phase + scanner.stride := by
    have := scanner.phase_lt
    omega
  rw [phase_iterate, Nat.add_mod_mod, whole, Nat.add_mod_right, Nat.mod_eq_of_lt phase_lt]

/-- No phase comes up twice in one round. -/
theorem phase_iterate_inj (scanner : Scanner) {i j : Nat} (hi : i < scanner.stride)
    (hj : j < scanner.stride) (same : (advance^[i] scanner).phase = (advance^[j] scanner).phase) :
    i = j := by
  rw [phase_iterate, phase_iterate] at same
  exact (Nat.ModEq.add_left_cancel' scanner.phase same).eq_of_lt_of_lt hi hj

theorem iterate_stride (scanner : Scanner) : advance^[scanner.stride] scanner = scanner := by
  have stride_eq := scanner.stride_iterate scanner.stride
  have phase_eq : (advance^[scanner.stride] scanner).phase = scanner.phase := by
    rw [phase_iterate, Nat.add_mod_right, Nat.mod_eq_of_lt scanner.phase_lt]
  generalize advance^[scanner.stride] scanner = later at stride_eq phase_eq
  obtain ⟨stride, phase, phase_lt⟩ := later
  simp_all

theorem mem_points {scanner : Scanner} {width height : Nat} {p : Point} :
    p ∈ scanner.points width height ↔ (p.x < width ∧ p.y < height) ∧
      p.x % scanner.stride = scanner.phase ∧ p.y % scanner.stride = scanner.phase := by
  rw [points, mem_latticePoints (Nat.zero_lt_of_lt scanner.phase_lt),
    onLattice_iff scanner.phase_lt, and_comm]

/-- The points of the present phase and of those after it, until the same phase is next again. -/
def round (scanner : Scanner) (width height : Nat) : List (List Point) :=
  (List.range scanner.stride).map fun i => (advance^[i] scanner).points width height

section
variable (scanner : Scanner) (width height : Nat)

theorem pairwise_of_mem_round : ∀ points ∈ scanner.round width height,
    points.Pairwise Point.Precedes := by
  intro points hpoints
  obtain ⟨i, -, rfl⟩ := List.mem_map.1 hpoints
  exact pairwise_latticePoints (Nat.zero_lt_of_lt (advance^[i] scanner).phase_lt) ..

theorem disjoint_round : (scanner.round width height).Pairwise List.Disjoint := by
  refine List.pairwise_map.2 (List.pairwise_lt_range.imp_of_mem fun {i j} hi hj lt => ?_)
  intro p hp hp'
  obtain ⟨-, x_mod, -⟩ := mem_points.1 hp
  obtain ⟨-, x_mod', -⟩ := mem_points.1 hp'
  rw [stride_iterate] at x_mod x_mod'
  have same := scanner.phase_iterate_inj (List.mem_range.1 hi) (List.mem_range.1 hj)
    (x_mod.symm.trans x_mod')
  exact Nat.ne_of_lt lt same

variable {width height}

theorem mem_round_iff {p : Point} : p ∈ (scanner.round width height).flatten ↔
    (p.x < width ∧ p.y < height) ∧ p.x % scanner.stride = p.y % scanner.stride := by
  have split : p ∈ (scanner.round width height).flatten ↔
      ∃ i < scanner.stride, p ∈ (advance^[i] scanner).points width height := by
    simp [round, List.mem_flatten]
  rw [split]
  constructor
  · rintro ⟨i, -, hp⟩
    obtain ⟨inside, x_mod, y_mod⟩ := mem_points.1 hp
    rw [stride_iterate] at x_mod y_mod
    exact ⟨inside, x_mod.trans y_mod.symm⟩
  · rintro ⟨inside, diagonal⟩
    obtain ⟨i, hi, phase_eq⟩ :=
      scanner.exists_phase_iterate (Nat.mod_lt p.x (Nat.zero_lt_of_lt scanner.phase_lt))
    refine ⟨i, hi, mem_points.2 ⟨inside, ?_, ?_⟩⟩
    · rw [stride_iterate, phase_eq]
    · rw [stride_iterate, phase_eq, diagonal]

end

/-- Wherever a scanner has got to, one round from there samples every position on the diagonal of
the lattice in exactly one of its phases, each phase row by row, and then starts over. A stride of
zero counts as one, and whatever 32-bit word the stride is, the next phase is one too. -/
theorem round_of_reached (stride : UInt32) (advances width height : Nat) :
    let scanner := advance^[advances] (ofStride stride.toNat)
    let phases := max stride.toNat 1
    (scanner.round width height).length = phases ∧
    (∀ points ∈ scanner.round width height, points.Pairwise Point.Precedes) ∧
    (scanner.round width height).Pairwise List.Disjoint ∧
    (∀ p, p ∈ (scanner.round width height).flatten ↔
      (p.x < width ∧ p.y < height) ∧ p.x % phases = p.y % phases) ∧
    scanner.phase + 1 < UInt32.size ∧ advance^[phases] scanner = scanner := by
  intro scanner phases
  have stride_eq : scanner.stride = phases := stride_iterate ..
  refine ⟨?_, scanner.pairwise_of_mem_round width height, scanner.disjoint_round width height,
    fun p => ?_, ?_, ?_⟩
  · rw [round, List.length_map, List.length_range, stride_eq]
  · rw [← stride_eq]
    exact scanner.mem_round_iff
  · have phase_lt : scanner.phase < phases := stride_eq ▸ scanner.phase_lt
    have stride_lt : stride.toNat < UInt32.size := stride.toNat_lt
    have one_lt : 1 < UInt32.size := by decide
    omega
  · rw [← stride_eq]
    exact scanner.iterate_stride

end Scanner

end ObjectTracking
