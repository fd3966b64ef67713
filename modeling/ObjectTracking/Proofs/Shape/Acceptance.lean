import ObjectTracking.Proofs.Number.Exact
import ObjectTracking.Confidence

/-!
# When a shape is accepted

In exact arithmetic a shape has a score exactly when at least one sample is due from it
(`ConfidenceModel.due`). The score is then a share, and a threshold accepts it exactly when the
samples that it has are more than that part of those due (`Confidence.accepts_ofCounts_iff`). So
whether a shape is accepted is monotone in how many samples it has and in how many are due.
-/

namespace ObjectTracking

open Exact

namespace ConfidenceModel

/-- The model names an outline. -/
def Known : ConfidenceModel → Prop
  | rectangle | circle => True
  | unknown _ => False

variable [Exact]

/-- The area of the outline within a rectangle of the given size. -/
noncomputable def area (width height : ℝ) : ConfidenceModel → ℝ
  | rectangle => width * height
  | circle => halfTurn / 4 * (width * height)
  | unknown _ => 0

/-- How many samples a solid outline is due: the whole number of lattice cells that its area makes
up, or the largest word. -/
noncomputable def due (model : ConfidenceModel) (width height : ℝ) (stride : Nat) : ℤ :=
  min (signedWord 63).2 ⌊model.area width height / (max stride 1 : ℕ) ^ 2⌋

section
variable {model : ConfidenceModel} {width height width' height' : ℝ}

theorem area_nonneg (width_nonneg : 0 ≤ width) (height_nonneg : 0 ≤ height) :
    0 ≤ model.area width height := by
  have := halfTurn_pos
  cases model <;> simp only [area] <;> positivity

theorem area_le_area (width_nonneg : 0 ≤ width) (height_nonneg : 0 ≤ height)
    (wider : width ≤ width') (higher : height ≤ height') :
    model.area width height ≤ model.area width' height' := by
  have product : width * height ≤ width' * height' :=
    mul_le_mul wider higher height_nonneg (width_nonneg.trans wider)
  have quarter_pos : 0 < halfTurn / 4 := by have := halfTurn_pos; positivity
  cases model with
  | rectangle => exact product
  | circle => exact mul_le_mul_of_nonneg_left product quarter_pos.le
  | unknown => exact le_rfl

theorem area_circle_le (small : halfTurn ≤ 4) (width_nonneg : 0 ≤ width)
    (height_nonneg : 0 ≤ height) : circle.area width height ≤ rectangle.area width height :=
  mul_le_of_le_one_left (mul_nonneg width_nonneg height_nonneg) (by linarith)

/-- The larger the outline, the more samples are due. -/
theorem due_le_due {model' : ConfidenceModel} (stride : Nat)
    (h : model.area width height ≤ model'.area width' height') :
    model.due width height stride ≤ model'.due width' height' stride :=
  min_le_min_left _ (Int.floor_mono (div_le_div_of_nonneg_right h (by positivity)))

theorem expectedPoints?_eq (known : model.Known) (width_nonneg : 0 ≤ width)
    (height_nonneg : 0 ≤ height) (stride : Nat) :
    Confidence.expectedPoints? model width height stride =
      some (model.due width height stride) := by
  have due_nonneg : 0 ≤ model.due width height stride :=
    le_min (by decide) (Int.floor_nonneg.2
      (div_nonneg (area_nonneg width_nonneg height_nonneg) (by positivity)))
  have lowest : (signedWord 63).1 ≤ model.due width height stride :=
    le_trans (by decide) due_nonneg
  have cell : (Scalar.square (Scalar.ofNat (max stride 1)) : ℝ) = (max stride 1 : ℕ) ^ 2 :=
    (sq _).symm
  rw [← max_eq_right lowest]
  cases model with
  | rectangle =>
    simp only [Confidence.expectedPoints?, cell]
    rfl
  | circle =>
    have share : halfTurn * width * height / ((4 : ℕ) * ((max stride 1 : ℕ) : ℝ) ^ 2) =
        circle.area width height / (max stride 1 : ℕ) ^ 2 := by
      simp only [area]
      field_simp
      norm_num
    simp only [Confidence.expectedPoints?, cell, due, ← share]
    rfl
  | unknown => exact known.elim

end

end ConfidenceModel

namespace Confidence
variable [Exact] {observed : Nat} {expected : Int} {threshold : ℝ}

theorem ofCounts_eq (h : 1 ≤ expected) :
    (ofCounts observed expected : Confidence ℝ) =
      score (min ((observed : ℝ) / (expected : ℝ)) 1) := by
  have cast : ((expected.toNat : ℕ) : ℝ) = expected := by
    exact_mod_cast Int.toNat_of_nonneg (by omega : 0 ≤ expected)
  have share : (Scalar.ofNat observed / Scalar.ofNat expected.toNat : ℝ) =
      (observed : ℝ) / (expected : ℝ) := congrArg ((observed : ℝ) / ·) cast
  have one : (Scalar.ofNat 1 : ℝ) = 1 := Nat.cast_one
  rw [ofCounts, if_neg (by omega)]
  simp only [share, one, le_iff]
  rw [min_def]

theorem ofCounts_of_none_due (h : ¬ 1 ≤ expected) :
    (ofCounts observed expected : Confidence ℝ) = degenerate := if_pos (by omega)

theorem due_of_scored {value : ℝ} (h : ofCounts observed expected = .score value) :
    1 ≤ expected := by
  by_contra none_due
  rw [ofCounts_of_none_due none_due] at h
  nomatch h

theorem score_mem {value : ℝ} (h : ofCounts observed expected = .score value) :
    0 ≤ value ∧ value ≤ 1 := by
  have any_due := due_of_scored h
  have expected_nonneg : (0 : ℝ) ≤ expected := by exact_mod_cast (by omega : 0 ≤ expected)
  rw [ofCounts_eq any_due] at h
  obtain rfl := score.inj h
  exact ⟨le_min (div_nonneg observed.cast_nonneg expected_nonneg) zero_le_one, min_le_right ..⟩

/-- A share of those due is accepted below one, if there are more than that share. -/
theorem accepts_ofCounts_iff :
    (ofCounts observed expected : Confidence ℝ).accepts threshold = true ↔
      1 ≤ expected ∧ threshold < 1 ∧ threshold * expected < observed := by
  by_cases h : 1 ≤ expected
  · have expected_pos : (0 : ℝ) < expected := by exact_mod_cast h
    rw [ofCounts_eq h]
    simp only [accepts, value?, lt_iff, lt_min_iff, lt_div_iff₀ expected_pos, h, true_and]
    exact and_comm
  · rw [ofCounts_of_none_due h]
    simp [accepts, value?, h]

/-- What is accepted is still accepted with more samples, or where fewer are due, as long as there
are any. -/
theorem accepts_of_accepts {observed' : Nat} {expected' : Int} (nonneg : 0 ≤ threshold)
    (more : observed ≤ observed') (fewer : expected' ≤ expected) (any_due : 1 ≤ expected')
    (accepted : (ofCounts observed expected : Confidence ℝ).accepts threshold = true) :
    (ofCounts observed' expected' : Confidence ℝ).accepts threshold = true := by
  obtain ⟨-, below_one, enough⟩ := accepts_ofCounts_iff.1 accepted
  refine accepts_ofCounts_iff.2 ⟨any_due, below_one, ?_⟩
  calc threshold * (expected' : ℝ)
      ≤ threshold * (expected : ℝ) := mul_le_mul_of_nonneg_left (by exact_mod_cast fewer) nonneg
    _ < observed := enough
    _ ≤ observed' := by exact_mod_cast more

theorem ofShape_eq {model : ConfidenceModel} (known : model.Known) (shape : Shape ℝ)
    (width_nonneg : 0 ≤ shape.width) (height_nonneg : 0 ≤ shape.height) (stride : Nat) :
    ofShape model shape stride =
      ofCounts shape.pointCount (model.due shape.width shape.height stride) := by
  rw [ofShape, ConfidenceModel.expectedPoints?_eq known width_nonneg height_nonneg]

/-- A rectangle that is large enough for a sample has a score, if it has any. -/
theorem exists_score {shape : Shape ℝ} (solid : 1 ≤ shape.width * shape.height)
    (some_point : 0 < shape.pointCount) :
    ∃ value, ofShape .rectangle shape 1 = .score value ∧ 0 < value := by
  let expected : Int := Scalar.floorWord
    (shape.width * shape.height / Scalar.square (Scalar.ofNat (max 1 1)))
  have expected_eq : expected =
      max (signedWord 63).1 (min (signedWord 63).2 ⌊shape.width * shape.height⌋) := by
    have cell : (Scalar.square (Scalar.ofNat (max 1 1)) : ℝ) = 1 := by
      show ((max 1 1 : ℕ) : ℝ) * ((max 1 1 : ℕ) : ℝ) = 1
      norm_num
    simp only [expected, cell, div_one]
    rfl
  have any_due : 1 ≤ expected := by
    rw [expected_eq]
    exact le_max_of_le_right (le_min (by decide) (Int.floor_pos.2 solid))
  have expected_pos : (0 : ℝ) < expected := by exact_mod_cast any_due
  exact ⟨_, ofCounts_eq any_due,
    lt_min (div_pos (Nat.cast_pos.2 some_point) expected_pos) zero_lt_one⟩

/-- When a shape is scored and when it is accepted, for every known model, size, stride, number of
points and threshold: it is scored exactly when a sample is due, with a share, and accepted exactly
when its points are more than the threshold's part of those due. More points never make it
rejected, and a larger outline never makes it accepted; and what is accepted as a solid rectangle
is accepted as a solid circle, where samples are due from both. -/
theorem acceptance (shape : Shape ℝ) (width_nonneg : 0 ≤ shape.width)
    (height_nonneg : 0 ≤ shape.height) (stride : Nat) (threshold : ℝ)
    (threshold_nonneg : 0 ≤ threshold) :
    (∀ model : ConfidenceModel, model.Known →
      let due := model.due shape.width shape.height stride
      let confidence := ofShape model shape stride
      expectedPoints? model shape.width shape.height stride = some due ∧
      ((∃ value, confidence = .score value) ↔ 1 ≤ due) ∧
      (∀ value, confidence = .score value → 0 ≤ value ∧ value ≤ 1) ∧
      (confidence.accepts threshold = true ↔
        1 ≤ due ∧ threshold < 1 ∧ threshold * due < shape.pointCount) ∧
      (∀ more ≥ shape.pointCount, confidence.accepts threshold = true →
        (ofShape model { shape with pointCount := more } stride).accepts threshold = true) ∧
      ∀ width ≥ shape.width, ∀ height ≥ shape.height, 1 ≤ due →
        confidence.accepts threshold = false →
        (ofShape model { shape with width, height } stride).accepts threshold = false) ∧
    (halfTurn ≤ 4 → 1 ≤ ConfidenceModel.rectangle.due shape.width shape.height stride →
      1 ≤ ConfidenceModel.circle.due shape.width shape.height stride →
      (ofShape .rectangle shape stride).accepts threshold = true →
      (ofShape .circle shape stride).accepts threshold = true) := by
  refine ⟨fun model known => ?model, fun small _ any_due accepted => ?circle⟩
  case model =>
    intro due confidence
    have confidence_eq : confidence = ofCounts shape.pointCount due :=
      ofShape_eq known shape width_nonneg height_nonneg stride
    rw [confidence_eq]
    refine ⟨ConfidenceModel.expectedPoints?_eq known width_nonneg height_nonneg stride,
      ⟨fun ⟨_, scored⟩ => due_of_scored scored, fun any_due => ⟨_, ofCounts_eq any_due⟩⟩,
      fun _ => score_mem, accepts_ofCounts_iff, fun more points accepted => ?points,
      fun width wider height higher any_due rejected => ?larger⟩
    case points =>
      have any_due := (accepts_ofCounts_iff.1 accepted).1
      rw [ofShape_eq known { shape with pointCount := more } width_nonneg height_nonneg]
      exact accepts_of_accepts threshold_nonneg points le_rfl any_due accepted
    case larger =>
      have fewer : due ≤ model.due width height stride := ConfidenceModel.due_le_due stride
        (ConfidenceModel.area_le_area width_nonneg height_nonneg wider higher)
      rw [ofShape_eq known { shape with width, height } (width_nonneg.trans wider)
        (height_nonneg.trans higher)]
      rw [Bool.eq_false_iff] at rejected ⊢
      exact fun accepted =>
        rejected (accepts_of_accepts threshold_nonneg le_rfl fewer any_due accepted)
  case circle =>
    have solid (model : ConfidenceModel) (known : model.Known) :=
      ofShape_eq known shape width_nonneg height_nonneg stride
    rw [solid .rectangle trivial] at accepted
    rw [solid .circle trivial]
    have fewer : ConfidenceModel.circle.due shape.width shape.height stride ≤
        ConfidenceModel.rectangle.due shape.width shape.height stride :=
      ConfidenceModel.due_le_due stride
        (ConfidenceModel.area_circle_le small width_nonneg height_nonneg)
    exact accepts_of_accepts threshold_nonneg le_rfl fewer any_due accepted

/-- The half turn of the program is such a number. -/
example : Scalar.le (Scalar.pi : Float) (Scalar.ofNat 4) = true := by decide +kernel

omit [Exact] in
/-- Twelve points of twenty are more than a half, and so they are of those due in the ellipse. -/
theorem acceptance_over_half :
    letI : Exact := .floored
    let shape : Shape ℝ := ⟨0, 0, 4, 5, 0, 12⟩
    halfTurn ≤ 4 ∧ ConfidenceModel.rectangle.due 4 5 1 = 20 ∧
      (ofShape .rectangle shape 1).accepts (1 / 2) = true ∧
      (ofShape .circle shape 1).accepts (1 / 2) = true := by
  let : Exact := .floored
  have small : halfTurn ≤ 4 := Real.pi_le_four
  have twenty_due : ConfidenceModel.rectangle.due 4 5 1 = 20 := by
    have whole : ⌊(4 * 5 : ℝ) / ((max 1 1 : ℕ) : ℝ) ^ 2⌋ = 20 := by norm_num
    exact (congrArg (min _) whole).trans (by decide)
  have any_due : 1 ≤ ConfidenceModel.circle.due 4 5 1 := by
    refine le_min (by decide) (Int.le_floor.2 ?_)
    have : (2 : ℝ) ≤ halfTurn := Real.two_le_pi
    norm_num [ConfidenceModel.area]
    linarith
  have h := acceptance ⟨0, 0, 4, 5, 0, 12⟩ (by norm_num) (by norm_num) 1 (1 / 2) (by norm_num)
  have accepted := (h.1 .rectangle trivial).2.2.2.1.2
    ⟨by rw [twenty_due]; decide, by norm_num, by rw [twenty_due]; norm_num⟩
  exact ⟨small, twenty_due, accepted, h.2 small (by rw [twenty_due]; decide) any_due accepted⟩

end Confidence

end ObjectTracking
