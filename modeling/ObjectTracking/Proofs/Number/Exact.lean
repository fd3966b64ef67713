import Mathlib.Analysis.Real.Sqrt
import Mathlib.Analysis.SpecialFunctions.Complex.Arg
import ObjectTracking.Number.Scalar

/-!
# Exact arithmetic

The real numbers as numbers of the geometry (`Exact.scalar`). A law of exact geometry is a statement
about what the program computes with these.
-/

namespace ObjectTracking

/-- Exact arithmetic, which leaves open what number stands for half a turn, and what machine number
for a real number where something is drawn. -/
class Exact where
  halfTurn : ℝ
  halfTurn_pos : 0 < halfTurn
  toDouble : ℝ → Float

namespace Exact

/-- Half a turn is pi, and what is drawn is rounded down to a whole number. -/
@[reducible]
noncomputable def floored : Exact := ⟨Real.pi, Real.pi_pos, fun x => Float.ofInt ⌊x⌋⟩

variable [Exact]

noncomputable instance scalar : Scalar ℝ where
  ofNat n := n
  decimal m e := m / 10 ^ e
  pi := halfTurn
  hypot x y := √(x ^ 2 + y ^ 2)
  atan2 y x := Complex.arg ⟨x, y⟩
  remainder a b := a - |b| * ⌊a / |b|⌋
  lt a b := decide (a < b)
  le a b := decide (a ≤ b)
  before a b := decide (a < b)
  floorWord x := max (signedWord 63).1 (min (signedWord 63).2 ⌊x⌋)
  toDouble := toDouble

theorem lt_iff {a b : ℝ} : Scalar.lt a b = true ↔ a < b := decide_eq_true_iff

theorem le_iff {a b : ℝ} : Scalar.le a b = true ↔ a ≤ b := decide_eq_true_iff

theorem least_eq (a b : ℝ) : Scalar.least a b = min a b := by
  rw [Scalar.least, if_congr lt_iff rfl rfl, min_comm, min_def_lt]

theorem greatest_eq (a b : ℝ) : Scalar.greatest a b = max a b := by
  rw [Scalar.greatest, if_congr lt_iff rfl rfl, max_def_lt]

theorem halfPi_eq : (Scalar.halfPi : ℝ) = halfTurn / 2 := rfl

end Exact

end ObjectTracking
