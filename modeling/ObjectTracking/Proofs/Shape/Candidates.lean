import ObjectTracking.Proofs.Shape.Enclosing

/-!
# The sides of a polygon as directions

Each side with a length proposes the tight rectangle along it (`exists_alongSide?`,
`tight_of_alongSide?`). A rectangle has to be smaller by more than the slack to take the place of an
earlier one; so the one that is left is larger than none of the others by more than the slack,
however many there are (`Leads.leadsAll`).
-/

namespace ObjectTracking.TiltedRect

open Exact

variable [Exact] {side : Vertex × Vertex} {first : Position ℝ} {rest : List (Position ℝ)}
  {rect : TiltedRect ℝ}

theorem ofInt_eq (n : Int) : (ofInt n : ℝ) = n := by
  obtain ⟨k, rfl | rfl⟩ := n.eq_nat_or_neg
  · rw [ofInt, if_neg (by omega), Int.natAbs_natCast, Int.cast_natCast]
    rfl
  · unfold ofInt
    rw [Int.natAbs_neg, Int.natAbs_natCast, Int.cast_neg, Int.cast_natCast]
    split
    · rfl
    · obtain rfl : k = 0 := by omega
      exact (congrArg Nat.cast rfl : ((0 : ℕ) : ℝ) = _).trans (by simp)

theorem slack_eq : (slack : ℝ) = 1 / 10 ^ 9 := by
  have decimal_eq : (slack : ℝ) = ((1 : ℕ) : ℝ) / 10 ^ 9 := rfl
  rw [decimal_eq, Nat.cast_one]

/-! ### One side -/

/-- How far a side goes to the right and down. -/
def sideX (side : Vertex × Vertex) : ℝ := ((side.2.x - side.1.x : Int) : ℝ)

def sideY (side : Vertex × Vertex) : ℝ := ((side.2.y - side.1.y : Int) : ℝ)

noncomputable def sideLength (side : Vertex × Vertex) : ℝ := √(sideX side ^ 2 + sideY side ^ 2)

omit [Exact] in
theorem sideX_ne_or_sideY_ne (proper : side.1 ≠ side.2) : sideX side ≠ 0 ∨ sideY side ≠ 0 := by
  rw [← not_and_or, sideX, sideY, Int.cast_eq_zero, Int.cast_eq_zero]
  rintro ⟨x_eq, y_eq⟩
  obtain ⟨⟨_, _⟩, ⟨_, _⟩⟩ := side
  simp only [ne_eq, Vertex.mk.injEq] at proper x_eq y_eq
  omega

omit [Exact] in
/-- Between whole coordinates no side is shorter than one, unless it has no length at all. -/
theorem one_le_sideLength (proper : side.1 ≠ side.2) : 1 ≤ sideLength side := by
  have nonzero := sideX_ne_or_sideY_ne proper
  rw [sideX, sideY, Int.cast_ne_zero, Int.cast_ne_zero] at nonzero
  have one_le : 1 ≤ (side.2.x - side.1.x) ^ 2 + (side.2.y - side.1.y) ^ 2 := by
    rcases nonzero with dx | dy
    · exact le_add_of_le_of_nonneg (Int.one_le_abs (pow_ne_zero 2 dx) |>.trans_eq (abs_sq _))
        (sq_nonneg _)
    · exact le_add_of_nonneg_of_le (sq_nonneg _)
        (Int.one_le_abs (pow_ne_zero 2 dy) |>.trans_eq (abs_sq _))
  rw [sideLength, Real.one_le_sqrt, sideX, sideY]
  exact_mod_cast one_le

theorem alongSide?_eq (side : Vertex × Vertex) (first : Position ℝ) (rest : List (Position ℝ)) :
    alongSide? side first rest = if sideLength side < 1 / 10 ^ 9 then none else
      some (along (sideX side / sideLength side) (sideY side / sideLength side) first rest) := by
  have dx_eq : (ofInt side.2.x - ofInt side.1.x : ℝ) = sideX side := by
    rw [ofInt_eq, ofInt_eq, sideX, Int.cast_sub]
  have dy_eq : (ofInt side.2.y - ofInt side.1.y : ℝ) = sideY side := by
    rw [ofInt_eq, ofInt_eq, sideY, Int.cast_sub]
  have length_eq : Scalar.hypot (sideX side) (sideY side) = sideLength side := rfl
  simp only [alongSide?]
  rw [dx_eq, dy_eq, length_eq, if_congr lt_iff rfl rfl, slack_eq]

theorem exists_unit_of_alongSide? (h : alongSide? side first rest = some rect) :
    ∃ ux uy, ux ^ 2 + uy ^ 2 = 1 ∧ rect = along ux uy first rest ∧
      ux * sideLength side = sideX side ∧ uy * sideLength side = sideY side := by
  rw [alongSide?_eq] at h
  split at h
  · cases h
  · rename_i long
    have pos : 0 < sideLength side := lt_of_lt_of_le (by positivity) (not_lt.1 long)
    have length_sq : sideLength side ^ 2 = sideX side ^ 2 + sideY side ^ 2 :=
      Real.sq_sqrt (by positivity)
    refine ⟨_, _, ?_, (Option.some.inj h).symm, div_mul_cancel₀ _ pos.ne',
      div_mul_cancel₀ _ pos.ne'⟩
    rw [div_pow, div_pow, ← add_div, ← length_sq, div_self (pow_ne_zero 2 pos.ne')]

theorem alongSide?_of_eq (same : side.1 = side.2) : alongSide? side first rest = none := by
  have length_eq : sideLength side = 0 := by simp [sideLength, sideX, sideY, same]
  rw [alongSide?_eq, length_eq, if_pos (by positivity)]

theorem exists_alongSide? (proper : side.1 ≠ side.2) (first : Position ℝ)
    (rest : List (Position ℝ)) : ∃ rect, alongSide? side first rest = some rect := by
  have long := one_le_sideLength proper
  exact ⟨_, by rw [alongSide?_eq, if_neg (not_lt.2 (le_trans (by norm_num) long))]⟩

theorem tight_of_alongSide? (h : alongSide? side first rest = some rect) :
    rect.Tight (first :: rest) ∧ rect.RunsAlong (sideX side) (sideY side) := by
  obtain ⟨ux, uy, unit, rfl, x_eq, y_eq⟩ := exists_unit_of_alongSide? h
  obtain ⟨cos_eq, sin_eq⟩ := angle_along unit first rest
  refine ⟨.along unit first rest, ?_⟩
  rw [RunsAlong, cos_eq, sin_eq, ← x_eq, ← y_eq]
  ring

/-! ### The best of some rectangles -/

/-- A rectangle that is larger than none of those seen by more than the slack. -/
inductive Leads : Option (TiltedRect ℝ) → List (TiltedRect ℝ) → Prop
  | nobody : Leads none []
  | held {rect : TiltedRect ℝ} {seen : List (TiltedRect ℝ)} (mem : rect ∈ seen)
    (area_le : ∀ other ∈ seen, rect.area ≤ other.area + slack) : Leads (some rect) seen

namespace Leads
variable {best : Option (TiltedRect ℝ)} {seen : List (TiltedRect ℝ)}

theorem next (h : Leads best seen) (rect : TiltedRect ℝ) :
    Leads (better best rect) (seen ++ [rect]) := by
  have slack_pos : (0 : ℝ) < slack := by rw [slack_eq]; positivity
  have known : ∀ other ∈ seen ++ [rect], other ∈ seen ∨ other = rect := by simp
  cases h with
  | nobody =>
    refine .held (by simp) fun other hother => ?_
    obtain rfl := (known other hother).resolve_left List.not_mem_nil
    linarith
  | @held leader _ mem area_le =>
    by_cases smaller : rect.area < leader.area - slack
    · -- the leader was at most the slack too large
      have wins : better (some leader) rect = some rect := if_pos (lt_iff.2 smaller)
      rw [wins]
      refine .held (by simp) fun other hother => ?_
      rcases known other hother with hother | rfl
      · linarith [area_le other hother]
      · linarith
    · have stays : better (some leader) rect = some leader := if_neg (lt_iff.not.2 smaller)
      rw [stays]
      refine .held (List.mem_append_left _ mem) fun other hother => ?_
      rcases known other hother with hother | rfl
      · exact area_le other hother
      · linarith

theorem leadsAll (candidates : List (TiltedRect ℝ)) :
    Leads (candidates.foldl better none) candidates := by
  induction candidates using List.reverseRecOn with
  | nil => exact nobody
  | append_singleton seen rect ih =>
    rw [List.foldl_append]
    exact ih.next rect

end Leads

/-! ### All sides of a polygon -/

theorem smallestAlong_cases (corners : List Vertex) (first : Position ℝ)
    (rest : List (Position ℝ)) :
    (∀ side ∈ sides corners, side.1 = side.2) ∧ smallestAlong corners first rest = dot first ∨
    (∃ side ∈ sides corners,
      alongSide? side first rest = some (smallestAlong corners first rest)) ∧
    ∀ side ∈ sides corners, side.1 ≠ side.2 → ∃ rect, alongSide? side first rest = some rect ∧
      (smallestAlong corners first rest).area ≤ rect.area + slack := by
  let candidates := (sides corners).filterMap fun side => alongSide? side first rest
  have smallest_eq : smallestAlong corners first rest =
    (candidates.foldl better none).getD (dot first) := rfl
  have leads : Leads (candidates.foldl better none) candidates := .leadsAll candidates
  generalize candidates.foldl better none = best at leads smallest_eq
  have mem_candidates : ∀ rect, rect ∈ candidates ↔
      ∃ side ∈ sides corners, alongSide? side first rest = some rect := fun _ => List.mem_filterMap
  generalize candidates = candidates at leads mem_candidates
  rw [smallest_eq]
  cases leads with
  | nobody =>
    refine .inl ⟨fun side hside => ?_, rfl⟩
    by_contra proper
    obtain ⟨rect, hrect⟩ := exists_alongSide? proper first rest
    exact List.not_mem_nil ((mem_candidates rect).2 ⟨side, hside, hrect⟩)
  | held mem area_le =>
    refine .inr ⟨(mem_candidates _).1 mem, fun side hside proper => ?_⟩
    obtain ⟨rect, hrect⟩ := exists_alongSide? proper first rest
    exact ⟨rect, hrect, area_le rect ((mem_candidates rect).2 ⟨side, hside, hrect⟩)⟩

end ObjectTracking.TiltedRect
