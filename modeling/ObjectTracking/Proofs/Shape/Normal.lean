import Mathlib.Algebra.Order.ToIntervalMod
import ObjectTracking.Proofs.Number.Exact
import ObjectTracking.Shape.Basic

/-!
# The normal form of a shape

In exact arithmetic an axis is folded to the one angle of its half circle that differs from it by
half turns (`Shape.foldAngle_eq`). So the shape of a rectangle depends on the rectangle only, not on
which of its sides is named first or on how often its angle goes around.
-/

namespace ObjectTracking

open Exact

variable [Exact]

/-- The angles differ by half turns: they are directions of one axis. -/
def SameAxis (a b : ℝ) : Prop := ∃ k : ℤ, a = b + k * halfTurn

namespace TiltedRect

/-- The direction of the side that is reported as the height. -/
noncomputable def longAxis (rect : TiltedRect ℝ) : ℝ :=
  if rect.height < rect.width then rect.angle else rect.angle + halfTurn / 2

/-- The same rectangle, described from its other side. -/
noncomputable def fromOtherSide (rect : TiltedRect ℝ) : TiltedRect ℝ :=
  { rect with width := rect.height, height := rect.width, angle := rect.angle + halfTurn / 2 }

/-- The same rectangle, its angle given some half turns further on. -/
noncomputable def turnedBy (k : ℤ) (rect : TiltedRect ℝ) : TiltedRect ℝ :=
  { rect with angle := rect.angle + k * halfTurn }

end TiltedRect

namespace SameAxis
variable {a b c : ℝ}

theorem refl (a : ℝ) : SameAxis a a := ⟨0, by simp⟩

theorem symm (h : SameAxis a b) : SameAxis b a := by
  obtain ⟨k, rfl⟩ := h
  exact ⟨-k, by push_cast; ring⟩

theorem trans (h : SameAxis a b) (h' : SameAxis b c) : SameAxis a c := by
  obtain ⟨k, rfl⟩ := h
  obtain ⟨l, rfl⟩ := h'
  exact ⟨l + k, by push_cast; ring⟩

end SameAxis

namespace Shape

theorem foldAngle_eq (angle : ℝ) :
    foldAngle angle = toIcoMod halfTurn_pos (-(halfTurn / 2)) angle := by
  have folded : Scalar.remainder (angle + Scalar.halfPi) Scalar.pi - Scalar.halfPi =
      toIcoMod halfTurn_pos (-(halfTurn / 2)) angle := by
    have remainder_eq : Scalar.remainder (angle + Scalar.halfPi) Scalar.pi =
      (angle + halfTurn / 2) - |halfTurn| * ⌊(angle + halfTurn / 2) / |halfTurn|⌋ := rfl
    rw [remainder_eq, halfPi_eq, abs_of_pos halfTurn_pos, toIcoMod, toIcoDiv_eq_floor,
      sub_neg_eq_add, zsmul_eq_mul]
    ring
  have below : toIcoMod halfTurn_pos (-(halfTurn / 2)) angle < halfTurn / 2 :=
    (toIcoMod_lt_right ..).trans_eq (by ring)
  rw [foldAngle, folded, halfPi_eq, if_neg fun le => absurd (le_iff.1 le) (not_le.2 below)]

theorem foldAngle_mem (angle : ℝ) : foldAngle angle ∈ Set.Ico (-(halfTurn / 2)) (halfTurn / 2) := by
  have mem := toIcoMod_mem_Ico halfTurn_pos (-(halfTurn / 2)) angle
  rwa [← foldAngle_eq, show -(halfTurn / 2) + halfTurn = halfTurn / 2 by ring] at mem

theorem foldAngle_sameAxis (angle : ℝ) : SameAxis (foldAngle angle) angle := by
  refine SameAxis.symm ⟨toIcoDiv halfTurn_pos (-(halfTurn / 2)) angle, ?_⟩
  rw [foldAngle_eq]
  exact (toIcoMod_add_toIcoDiv_mul ..).symm

theorem foldAngle_eq_iff {a b : ℝ} : foldAngle a = foldAngle b ↔ SameAxis a b := by
  constructor
  · intro same
    exact (foldAngle_sameAxis a).symm.trans (same ▸ foldAngle_sameAxis b)
  · rintro ⟨k, rfl⟩
    rw [foldAngle_eq, foldAngle_eq, ← zsmul_eq_mul, toIcoMod_add_zsmul]

theorem foldAngle_foldAngle (angle : ℝ) : foldAngle (foldAngle angle) = foldAngle angle :=
  foldAngle_eq_iff.2 (foldAngle_sameAxis angle)

/-- The shape of a rectangle by its sides and the direction of its height. -/
theorem ofRect_eq (rect : TiltedRect ℝ) (pointCount : Nat) :
    ofRect rect pointCount = ⟨rect.centerX, rect.centerY, min rect.width rect.height,
      max rect.width rect.height, foldAngle rect.longAxis, pointCount⟩ := by
  by_cases wide : rect.height < rect.width
  · rw [ofRect, if_pos (lt_iff.2 wide), min_eq_right wide.le, max_eq_left wide.le,
      TiltedRect.longAxis, if_pos wide]
  · have across : foldAngle (rect.angle - halfTurn / 2) = foldAngle (rect.angle + halfTurn / 2) :=
      foldAngle_eq_iff.2 ⟨-1, by push_cast; ring⟩
    rw [ofRect, if_neg (lt_iff.not.2 wide), min_eq_left (not_lt.1 wide),
      max_eq_right (not_lt.1 wide), TiltedRect.longAxis, if_neg wide, halfPi_eq, ← across]

theorem ofRect_fromOtherSide {rect : TiltedRect ℝ} (oblong : rect.width ≠ rect.height)
    (pointCount : Nat) : ofRect rect.fromOtherSide pointCount = ofRect rect pointCount := by
  have axis : SameAxis rect.fromOtherSide.longAxis rect.longAxis := by
    rw [TiltedRect.longAxis, TiltedRect.longAxis]
    rcases lt_or_gt_of_ne oblong with tall | wide
    · rw [if_pos (show rect.fromOtherSide.height < rect.fromOtherSide.width from tall),
        if_neg tall.not_gt]
      exact .refl _
    · rw [if_neg (show ¬rect.fromOtherSide.height < rect.fromOtherSide.width from wide.not_gt),
        if_pos wide]
      exact ⟨1, by simp only [TiltedRect.fromOtherSide]; push_cast; ring⟩
  rw [ofRect_eq, ofRect_eq, foldAngle_eq_iff.2 axis]
  simp only [TiltedRect.fromOtherSide, min_comm, max_comm]

theorem ofRect_turnedBy (k : ℤ) (rect : TiltedRect ℝ) (pointCount : Nat) :
    ofRect (rect.turnedBy k) pointCount = ofRect rect pointCount := by
  have axis : SameAxis (rect.turnedBy k).longAxis rect.longAxis := by
    refine ⟨k, ?_⟩
    unfold TiltedRect.longAxis TiltedRect.turnedBy
    split <;> ring
  rw [ofRect_eq, ofRect_eq, foldAngle_eq_iff.2 axis]
  rfl

theorem rotationDegrees_mem {rotation : ℝ}
    (h : rotation ∈ Set.Ico (-(halfTurn / 2)) (halfTurn / 2)) :
    rotationDegrees rotation ∈ Set.Ico 0 180 := by
  have degrees_eq : rotationDegrees rotation = (rotation + halfTurn / 2) * ((180 : ℕ) / halfTurn) :=
    rfl
  have pos := halfTurn_pos
  rw [degrees_eq, ← mul_div_assoc, Nat.cast_ofNat]
  refine ⟨div_nonneg (mul_nonneg ?_ (by norm_num)) pos.le, (div_lt_iff₀ pos).2 ?_⟩
  · linarith [h.1]
  · linarith [h.2]

end Shape

end ObjectTracking
