import ObjectTracking.Proofs.Shape.Candidates

/-!
# The center of a rectangle around points

A tilted rectangle may reach beyond the upright box of its points, but its center does not. For each
direction of the image, take the point that lies farthest back along the rectangle as this direction
counts it, and the one that does across it: together they are no further on than the two middles, so
one of them is no further on than the center (`Spans.exists_le_middle`).
-/

namespace ObjectTracking.TiltedRect

open Exact

def center (rect : TiltedRect ℝ) : Position ℝ := (rect.centerX, rect.centerY)

/-- In the upright box of some positions. -/
structure InBox (points : List (Position ℝ)) (q : Position ℝ) : Prop where
  right : ∃ p ∈ points, p.1 ≤ q.1
  left : ∃ p ∈ points, q.1 ≤ p.1
  below : ∃ p ∈ points, p.2 ≤ q.2
  above : ∃ p ∈ points, q.2 ≤ p.2

theorem InBox.of_mem {points : List (Position ℝ)} {q : Position ℝ} (h : q ∈ points) :
    InBox points q :=
  ⟨⟨q, h, le_rfl⟩, ⟨q, h, le_rfl⟩, ⟨q, h, le_rfl⟩, ⟨q, h, le_rfl⟩⟩

namespace Spans
variable {points : List (Position ℝ)} {f g : Position ℝ → ℝ} {range range' : ℝ × ℝ}

/-- The end that counts less, whichever end that is, makes up for any other point. -/
theorem exists_light (h : Spans range f points) (weight : ℝ) :
    ∃ a ∈ points, ∀ b ∈ points, weight * (f a + f b) ≤ weight * (range.1 + range.2) := by
  rcases le_total 0 weight with nonneg | nonpos
  · obtain ⟨a, ha, least⟩ := h.least_mem
    refine ⟨a, ha, fun b hb => mul_le_mul_of_nonneg_left ?_ nonneg⟩
    linarith [h.le_greatest b hb]
  · obtain ⟨a, ha, greatest⟩ := h.greatest_mem
    refine ⟨a, ha, fun b hb => mul_le_mul_of_nonpos_left ?_ nonpos⟩
    linarith [h.least_le b hb]

theorem exists_le_middle (h : Spans range f points) (h' : Spans range' g points) (α β : ℝ) :
    ∃ p ∈ points, α * f p + β * g p ≤
      α * ((range.1 + range.2) / 2) + β * ((range'.1 + range'.2) / 2) := by
  obtain ⟨a, ha, light_a⟩ := h.exists_light α
  obtain ⟨b, hb, light_b⟩ := h'.exists_light β
  by_contra! beyond
  linarith [light_a b hb, light_b a ha, beyond a ha, beyond b hb]

end Spans

variable [Exact] {first : Position ℝ} {rest : List (Position ℝ)}

theorem InBox.along {ux uy : ℝ} (unit : ux ^ 2 + uy ^ 2 = 1) (first : Position ℝ)
    (rest : List (Position ℝ)) : InBox (first :: rest) (along ux uy first rest).center := by
  obtain ⟨u, n, spans_u, spans_n, rect_eq⟩ := along_eq ux uy first rest
  have x_eq : ∀ p, p.1 = ux * coordinate ux uy p + -uy * coordinate (-uy) ux p := fun p => by
    simp only [coordinate]
    linear_combination (-p.1) * unit
  have y_eq : ∀ p, p.2 = uy * coordinate ux uy p + ux * coordinate (-uy) ux p := fun p => by
    simp only [coordinate]
    linear_combination (-p.2) * unit
  rw [rect_eq, center]
  refine ⟨?right, ?left, ?below, ?above⟩
  case right =>
    obtain ⟨p, hp, le⟩ := spans_u.exists_le_middle spans_n ux (-uy)
    exact ⟨p, hp, by rw [x_eq p]; dsimp only; linarith⟩
  case left =>
    obtain ⟨p, hp, le⟩ := spans_u.exists_le_middle spans_n (-ux) uy
    exact ⟨p, hp, by rw [x_eq p]; dsimp only; linarith⟩
  case below =>
    obtain ⟨p, hp, le⟩ := spans_u.exists_le_middle spans_n uy ux
    exact ⟨p, hp, by rw [y_eq p]; dsimp only; linarith⟩
  case above =>
    obtain ⟨p, hp, le⟩ := spans_u.exists_le_middle spans_n (-uy) (-ux)
    exact ⟨p, hp, by rw [y_eq p]; dsimp only; linarith⟩

theorem InBox.alongSide {side : Vertex × Vertex} {rect : TiltedRect ℝ}
    (h : alongSide? side first rest = some rect) : InBox (first :: rest) rect.center := by
  obtain ⟨ux, uy, unit, rfl, -⟩ := exists_unit_of_alongSide? h
  exact .along unit first rest

/-- Whichever of the sides is taken, and also if there is none. -/
theorem InBox.smallestAlong (corners : List Vertex) (first : Position ℝ)
    (rest : List (Position ℝ)) :
    InBox (first :: rest) (smallestAlong corners first rest).center := by
  rcases smallestAlong_cases corners first rest with ⟨-, rect_eq⟩ | ⟨⟨side, -, found⟩, -⟩
  · rw [rect_eq]
    exact .of_mem List.mem_cons_self
  · exact .alongSide found

theorem InBox.around (first : Point) (rest : List Point) :
    InBox ((first :: rest).map positionOf) (around (first :: rest)).center :=
  .smallestAlong ..

end ObjectTracking.TiltedRect
