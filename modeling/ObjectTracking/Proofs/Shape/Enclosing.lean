import ObjectTracking.Proofs.Number.Exact
import ObjectTracking.Shape.Rectangle

/-!
# Rectangles around points

In exact arithmetic the rectangle along a unit vector is measured over all points, and so it encloses
them and has one on each of its sides (`Tight.along`). Of all rectangles in this direction that
enclose the points it is the smallest (`Tight.area_le`).
-/

namespace ObjectTracking.TiltedRect

open Exact

/-- How far a position lies along the vector `(ux, uy)`. -/
def coordinate (ux uy : ℝ) (p : Position ℝ) : ℝ := p.1 * ux + p.2 * uy

/-! ### Positions and a rectangle -/

/-- How far a position lies beyond the center along the width. -/
noncomputable def lengthwise (rect : TiltedRect ℝ) (p : Position ℝ) : ℝ :=
  coordinate (Real.cos rect.angle) (Real.sin rect.angle) (p.1 - rect.centerX, p.2 - rect.centerY)

/-- How far a position lies beyond the center along the height. -/
noncomputable def crosswise (rect : TiltedRect ℝ) (p : Position ℝ) : ℝ :=
  coordinate (-Real.sin rect.angle) (Real.cos rect.angle) (p.1 - rect.centerX, p.2 - rect.centerY)

structure Contains (rect : TiltedRect ℝ) (p : Position ℝ) : Prop where
  lengthwise : |rect.lengthwise p| ≤ rect.width / 2
  crosswise : |rect.crosswise p| ≤ rect.height / 2

/-- The rectangle encloses the points, and each of its four sides touches one of them. -/
structure Tight (rect : TiltedRect ℝ) (points : List (Position ℝ)) : Prop where
  encloses : ∀ p ∈ points, rect.Contains p
  front : ∃ p ∈ points, rect.lengthwise p = rect.width / 2
  back : ∃ p ∈ points, rect.lengthwise p = -(rect.width / 2)
  left : ∃ p ∈ points, rect.crosswise p = rect.height / 2
  right : ∃ p ∈ points, rect.crosswise p = -(rect.height / 2)

/-- The width runs along the vector `(dx, dy)`, forward or backward. -/
def RunsAlong (rect : TiltedRect ℝ) (dx dy : ℝ) : Prop :=
  Real.cos rect.angle * dy = Real.sin rect.angle * dx

/-! ### Extents -/

variable {points : List (Position ℝ)} {f : Position ℝ → ℝ} {range : ℝ × ℝ}

/-- The least and the greatest value at some points. -/
structure Spans (range : ℝ × ℝ) (f : Position ℝ → ℝ) (points : List (Position ℝ)) : Prop where
  least_le : ∀ p ∈ points, range.1 ≤ f p
  le_greatest : ∀ p ∈ points, f p ≤ range.2
  least_mem : ∃ p ∈ points, f p = range.1
  greatest_mem : ∃ p ∈ points, f p = range.2

namespace Spans

theorem single (f : Position ℝ → ℝ) (p : Position ℝ) : Spans (f p, f p) f [p] := by
  constructor <;> simp

theorem concat (h : Spans range f points) (p : Position ℝ) :
    Spans (min range.1 (f p), max range.2 (f p)) f (points ++ [p]) := by
  have known : ∀ q ∈ points ++ [p], q ∈ points ∨ q = p := by simp
  obtain ⟨low, hlow, low_eq⟩ := h.least_mem
  obtain ⟨high, hhigh, high_eq⟩ := h.greatest_mem
  refine ⟨fun q hq => ?least_le, fun q hq => ?le_greatest, ?least_mem, ?greatest_mem⟩
  case least_le =>
    rcases known q hq with hq | rfl
    · exact (min_le_left ..).trans (h.least_le q hq)
    · exact min_le_right ..
  case le_greatest =>
    rcases known q hq with hq | rfl
    · exact (h.le_greatest q hq).trans (le_max_left ..)
    · exact le_max_right ..
  case least_mem =>
    rcases min_choice range.1 (f p) with eq | eq
    · exact ⟨low, List.mem_append_left _ hlow, low_eq.trans eq.symm⟩
    · exact ⟨p, by simp, eq.symm⟩
  case greatest_mem =>
    rcases max_choice range.2 (f p) with eq | eq
    · exact ⟨high, List.mem_append_left _ hhigh, high_eq.trans eq.symm⟩
    · exact ⟨p, by simp, eq.symm⟩

/-- Around its middle a range reaches as far as half its length, and on both sides. -/
theorem around_middle (h : Spans range f points) :
    (∀ p ∈ points, |f p - (range.1 + range.2) / 2| ≤ (range.2 - range.1) / 2) ∧
      (∃ p ∈ points, f p - (range.1 + range.2) / 2 = (range.2 - range.1) / 2) ∧
      ∃ p ∈ points, f p - (range.1 + range.2) / 2 = -((range.2 - range.1) / 2) := by
  obtain ⟨low, hlow, low_eq⟩ := h.least_mem
  obtain ⟨high, hhigh, high_eq⟩ := h.greatest_mem
  refine ⟨fun p hp => abs_le.2 ?_, ⟨high, hhigh, ?_⟩, ⟨low, hlow, ?_⟩⟩
  · have := h.least_le p hp
    have := h.le_greatest p hp
    constructor <;> linarith
  · rw [high_eq]
    ring
  · rw [low_eq]
    ring

theorem extent [Exact] (f : Position ℝ → ℝ) (first : Position ℝ) (rest : List (Position ℝ)) :
    Spans (extent (f first) (rest.map f)) f (first :: rest) := by
  induction rest using List.reverseRecOn with
  | nil => exact single f first
  | append_singleton rest p ih =>
    have longer : TiltedRect.extent (f first) ((rest ++ [p]).map f) =
        (min (TiltedRect.extent (f first) (rest.map f)).1 (f p),
          max (TiltedRect.extent (f first) (rest.map f)).2 (f p)) := by
      rw [TiltedRect.extent, List.map_append, List.foldl_append, ← least_eq, ← greatest_eq]
      rfl
    rw [longer]
    exact ih.concat p

end Spans

/-! ### The rectangle along a unit vector -/

variable [Exact] {ux uy : ℝ} {first : Position ℝ} {rest : List (Position ℝ)}

theorem angle_along (unit : ux ^ 2 + uy ^ 2 = 1) (first : Position ℝ) (rest : List (Position ℝ)) :
    Real.cos (along ux uy first rest).angle = ux ∧
      Real.sin (along ux uy first rest).angle = uy := by
  have angle_eq : (along ux uy first rest).angle = Complex.arg ⟨ux, uy⟩ := rfl
  have norm_eq : ‖(⟨ux, uy⟩ : ℂ)‖ = 1 := by
    rw [Complex.norm_def, Complex.normSq_mk, ← sq, ← sq, unit, Real.sqrt_one]
  have ne : (⟨ux, uy⟩ : ℂ) ≠ 0 := norm_ne_zero_iff.1 (norm_eq ▸ one_ne_zero)
  rw [angle_eq, Complex.cos_arg ne, Complex.sin_arg, norm_eq, div_one, div_one]
  exact ⟨rfl, rfl⟩

/-- The rectangle along a unit vector, by the ranges of its points along and across the vector. -/
theorem along_eq (ux uy : ℝ) (first : Position ℝ) (rest : List (Position ℝ)) :
    ∃ u n : ℝ × ℝ, Spans u (coordinate ux uy) (first :: rest) ∧
      Spans n (coordinate (-uy) ux) (first :: rest) ∧
      along ux uy first rest =
        { centerX := (u.1 + u.2) / 2 * ux + (n.1 + n.2) / 2 * -uy
          centerY := (u.1 + u.2) / 2 * uy + (n.1 + n.2) / 2 * ux
          width := u.2 - u.1
          height := n.2 - n.1
          angle := Complex.arg ⟨ux, uy⟩ } := by
  refine ⟨_, _, .extent (coordinate ux uy) first rest, .extent (coordinate (-uy) ux) first rest, ?_⟩
  have two : (Scalar.ofNat 2 : ℝ) = 2 := Nat.cast_ofNat
  simp only [along, two]
  rfl

theorem Tight.along (unit : ux ^ 2 + uy ^ 2 = 1) (first : Position ℝ) (rest : List (Position ℝ)) :
    Tight (along ux uy first rest) (first :: rest) := by
  obtain ⟨u, n, spans_u, spans_n, rect_eq⟩ := along_eq ux uy first rest
  obtain ⟨cos_eq, sin_eq⟩ := angle_along unit first rest
  have lengthwise_eq : ∀ p, (TiltedRect.along ux uy first rest).lengthwise p =
      coordinate ux uy p - (u.1 + u.2) / 2 := fun p => by
    rw [lengthwise, cos_eq, sin_eq, rect_eq, coordinate, coordinate]
    linear_combination (-((u.1 + u.2) / 2)) * unit
  have crosswise_eq : ∀ p, (TiltedRect.along ux uy first rest).crosswise p =
      coordinate (-uy) ux p - (n.1 + n.2) / 2 := fun p => by
    rw [crosswise, cos_eq, sin_eq, rect_eq, coordinate, coordinate]
    linear_combination (-((n.1 + n.2) / 2)) * unit
  have width_eq : (TiltedRect.along ux uy first rest).width = u.2 - u.1 := by rw [rect_eq]
  have height_eq : (TiltedRect.along ux uy first rest).height = n.2 - n.1 := by rw [rect_eq]
  obtain ⟨inside_u, front, back⟩ := spans_u.around_middle
  obtain ⟨inside_n, left, right⟩ := spans_n.around_middle
  refine ⟨fun p hp => ⟨?_, ?_⟩, ?_, ?_, ?_, ?_⟩
  · rw [lengthwise_eq, width_eq]
    exact inside_u p hp
  · rw [crosswise_eq, height_eq]
    exact inside_n p hp
  all_goals simpa only [lengthwise_eq, crosswise_eq, width_eq, height_eq]

/-! ### The smallest rectangle in a direction -/

omit [Exact] in
/-- Rectangles along the same vector have the same direction, or opposite ones. -/
theorem RunsAlong.same_or_opposite {rect other : TiltedRect ℝ} {dx dy : ℝ}
    (h : rect.RunsAlong dx dy) (h' : other.RunsAlong dx dy) (long : dx ≠ 0 ∨ dy ≠ 0) :
    ∃ sign : ℝ, |sign| = 1 ∧ Real.cos other.angle = sign * Real.cos rect.angle ∧
      Real.sin other.angle = sign * Real.sin rect.angle := by
  have unit := Real.cos_sq_add_sin_sq rect.angle
  have unit' := Real.cos_sq_add_sin_sq other.angle
  simp only [RunsAlong] at h h'
  generalize Real.cos rect.angle = c at *
  generalize Real.sin rect.angle = s at *
  generalize Real.cos other.angle = c' at *
  generalize Real.sin other.angle = s' at *
  have parallel : c * s' - s * c' = 0 := by
    rcases long with nonzero | nonzero
    · refine (mul_eq_zero.1 ?_).resolve_right nonzero
      linear_combination c' * h - c * h'
    · refine (mul_eq_zero.1 ?_).resolve_right nonzero
      linear_combination s' * h - s * h'
  refine ⟨c * c' + s * s', ?_, ?_, ?_⟩
  · rw [← abs_one, ← sq_eq_sq_iff_abs_eq_abs]
    linear_combination (c' ^ 2 + s' ^ 2) * unit + unit' - (c * s' - s * c') * parallel
  · linear_combination (-c') * unit - s * parallel
  · linear_combination (-s') * unit + c * parallel

omit [Exact] in
theorem Contains.abs_sub_le {rect : TiltedRect ℝ} {p q : Position ℝ} (hp : rect.Contains p)
    (hq : rect.Contains q) :
    |rect.lengthwise p - rect.lengthwise q| ≤ rect.width ∧
      |rect.crosswise p - rect.crosswise q| ≤ rect.height := by
  constructor
  · refine (abs_sub _ _).trans ?_
    linarith [hp.lengthwise, hq.lengthwise]
  · refine (abs_sub _ _).trans ?_
    linarith [hp.crosswise, hq.crosswise]

/-- Of the rectangles along a vector that enclose some points a tight one is the smallest. -/
theorem Tight.area_le {rect other : TiltedRect ℝ} {dx dy : ℝ} (tight : rect.Tight points)
    (h : rect.RunsAlong dx dy) (h' : other.RunsAlong dx dy) (long : dx ≠ 0 ∨ dy ≠ 0)
    (encloses : ∀ p ∈ points, other.Contains p) : rect.area ≤ other.area := by
  obtain ⟨sign, unit, cos_eq, sin_eq⟩ := h.same_or_opposite h' long
  have lengthwise_sub : ∀ p q, other.lengthwise p - other.lengthwise q =
      sign * (rect.lengthwise p - rect.lengthwise q) := fun p q => by
    simp only [lengthwise, coordinate, cos_eq, sin_eq]
    ring
  have crosswise_sub : ∀ p q, other.crosswise p - other.crosswise q =
      sign * (rect.crosswise p - rect.crosswise q) := fun p q => by
    simp only [crosswise, coordinate, cos_eq, sin_eq]
    ring
  have width_le : rect.width ≤ other.width := by
    obtain ⟨p, hp, front⟩ := tight.front
    obtain ⟨q, hq, back⟩ := tight.back
    have bound := ((encloses p hp).abs_sub_le (encloses q hq)).1
    rw [lengthwise_sub, abs_mul, unit, one_mul, front, back] at bound
    linarith [le_abs_self (rect.width / 2 - -(rect.width / 2))]
  have height_le : rect.height ≤ other.height := by
    obtain ⟨p, hp, left⟩ := tight.left
    obtain ⟨q, hq, right⟩ := tight.right
    have bound := ((encloses p hp).abs_sub_le (encloses q hq)).2
    rw [crosswise_sub, abs_mul, unit, one_mul, left, right] at bound
    linarith [le_abs_self (rect.height / 2 - -(rect.height / 2))]
  obtain ⟨p, hp, -⟩ := tight.front
  obtain ⟨inside_u, inside_n⟩ := tight.encloses p hp
  have width_nonneg : 0 ≤ rect.width := by linarith [abs_nonneg (rect.lengthwise p)]
  have height_nonneg : 0 ≤ rect.height := by linarith [abs_nonneg (rect.crosswise p)]
  exact mul_le_mul width_le height_le height_nonneg (width_nonneg.trans width_le)

end ObjectTracking.TiltedRect
