import Mathlib.Data.Finset.Lattice.Fold
import ObjectTracking.Proofs.Shape.Candidates
import ObjectTracking.Proofs.Shape.Hull

/-!
# The smallest rectangle around points

A line with two points on it and none beyond it runs along a side of the hull that was found
(`IsHull.exists_side`). So the sides propose a tight rectangle for each such line, and unless all
points coincide the best of these is taken (`TiltedRect.around_cases`).
-/

namespace ObjectTracking

open Exact TiltedRect

namespace TiltedRect
variable {corners before between after : List Vertex} {u v : Vertex}

theorem mem_sides_of_next (h : corners = before ++ u :: v :: after) : (u, v) ∈ sides corners := by
  have next_eq : corners.drop 1 ++ corners.take 1 =
      (before ++ [u]).drop 1 ++ v :: (after ++ corners.take 1) := by
    rw [h, List.append_cons, List.drop_append_of_le_length (by simp)]
    simp
  rw [sides, next_eq, h, List.zip_append (by simp)]
  simp

theorem mem_of_mem_sides {side : Vertex × Vertex} (h : side ∈ sides corners) :
    side.1 ∈ corners ∧ side.2 ∈ corners := by
  obtain ⟨start, next⟩ := List.of_mem_zip h
  refine ⟨start, ?_⟩
  rcases List.mem_append.1 next with next | next
  · exact List.mem_of_mem_drop next
  · exact List.mem_of_mem_take next

theorem mem_sides_of_ends (h : corners = u :: between ++ [v]) : (v, u) ∈ sides corners := by
  have next_eq : corners.drop 1 ++ corners.take 1 = between ++ [v] ++ [u] := by
    rw [h]
    rfl
  rw [sides, next_eq, h, List.zip_append (by simp)]
  simp

end TiltedRect

namespace Vertex
variable {corners points before between after : List Vertex} {o p q u v w : Vertex}

/-- The half plane beside the line from `u` to `v`. -/
def HalfPlane.beside (u v : Vertex) : HalfPlane :=
  ⟨u.y - v.y, v.x - u.x, (v.y - u.y) * u.x - (v.x - u.x) * u.y⟩

theorem level_beside (u v p : Vertex) : (HalfPlane.beside u v).level p = turn u v p := by
  simp only [HalfPlane.level, HalfPlane.beside, turn]; ring

/-- The line from `u` to `v` runs along the hull of the points: it leads through two of them, and
none lies on its other side. -/
structure IsHullSide (points : List Vertex) (u v : Vertex) : Prop where
  start_mem : u ∈ points
  end_mem : v ∈ points
  ne : u ≠ v
  beside : ∀ p ∈ points, 0 ≤ turn u v p

theorem eq_of_level_eq_zero {side : HalfPlane} (bent : turn o p q ≠ 0) (ho : side.level o = 0)
    (hp : side.level p = 0) (hq : side.level q = 0) (r : Vertex) : side.level r = 0 := by
  have level_eq := level_mul_turn side o p q r
  rw [ho, hp, hq, zero_mul, zero_mul, zero_mul, add_zero, add_zero, mul_eq_zero] at level_eq
  exact level_eq.resolve_right bent

/-- A half plane that ends at two points and has others on both sides of their line is the plane. -/
theorem level_eq_zero_of_both_sides {side : HalfPlane} (hu : side.level u = 0)
    (hv : side.level v = 0) (hp : 0 ≤ side.level p) (hq : 0 ≤ side.level q)
    (right : turn u v p < 0) (left : 0 < turn u v q) (r : Vertex) : side.level r = 0 := by
  have level_eq := level_mul_turn side u v p q
  rw [hu, hv, zero_mul, zero_mul, zero_add, zero_add] at level_eq
  have q_nonpos : side.level q * turn u v p ≤ 0 := mul_nonpos_of_nonneg_of_nonpos hq right.le
  have p_nonneg : 0 ≤ side.level p * turn u v q := mul_nonneg hp left.le
  have level_p : side.level p = 0 :=
    (mul_eq_zero.1 (le_antisymm (level_eq ▸ q_nonpos) p_nonneg)).resolve_right left.ne'
  exact eq_of_level_eq_zero right.ne hu hv level_p r

namespace IsHull

/-- Where a half plane that has all corners ends at a point, it does so at a corner, and at another
than the one given. -/
theorem exists_corner_ne (h : IsHull corners points) {side : HalfPlane}
    (holds : ∀ w ∈ corners, 0 ≤ side.level w) (hp : p ∈ points) (level_eq : side.level p = 0)
    (ne : v ≠ p) : ∃ w ∈ corners, side.level w = 0 ∧ w ≠ v := by
  by_contra! only
  -- otherwise it could be turned a little about that corner, and lose the point but no corner
  let toward : HalfPlane := ⟨v.x - p.x, v.y - p.y, -((v.x - p.x) * v.x + (v.y - p.y) * v.y)⟩
  obtain ⟨steep, steep_ge⟩ : ∃ steep : Int, ∀ w ∈ corners, -toward.level w ≤ steep := by
    obtain ⟨bound, hbound⟩ := (corners.map fun w => -toward.level w).toFinset.exists_le
    exact ⟨bound, fun w hw => hbound _ (List.mem_toFinset.2 (List.mem_map_of_mem hw))⟩
  let turned : HalfPlane := ⟨|steep| * side.a + toward.a, |steep| * side.b + toward.b,
    |steep| * side.c + toward.c⟩
  have turned_eq : ∀ w, turned.level w = |steep| * side.level w + toward.level w := fun w => by
    simp only [turned, HalfPlane.level]; ring
  have at_point : toward.level p = -distanceSq v p := by
    simp only [toward, HalfPlane.level, distanceSq]; ring
  have at_corner : toward.level v = 0 := by
    simp only [toward, HalfPlane.level]; ring
  have within := h.within p hp turned fun w hw => ?_
  · rw [turned_eq, level_eq, mul_zero, zero_add, at_point] at within
    exact ne (eq_of_distanceSq_le (by omega)).symm
  · rw [turned_eq]
    by_cases on : side.level w = 0
    · rw [on, mul_zero, zero_add, only w hw on, at_corner]
    · have inside := holds w hw
      have enough : |steep| ≤ |steep| * side.level w :=
        le_mul_of_one_le_right (abs_nonneg steep) (by omega)
      linarith [steep_ge w hw, le_abs_self steep]

/-- Where a half plane that has all corners ends at two points, it does so at two corners. -/
theorem exists_two_corners (h : IsHull corners points) {side : HalfPlane}
    (holds : ∀ w ∈ corners, 0 ≤ side.level w) (hp : p ∈ points) (hq : q ∈ points) (ne : p ≠ q)
    (level_p : side.level p = 0) (level_q : side.level q = 0) :
    ∃ u ∈ corners, ∃ v ∈ corners, u ≠ v ∧ side.level u = 0 ∧ side.level v = 0 := by
  obtain ⟨u, hu, level_u, -⟩ := h.exists_corner_ne holds hp level_p ne.symm
  obtain ⟨v, hv, level_v, other⟩ : ∃ v ∈ corners, side.level v = 0 ∧ v ≠ u := by
    by_cases start : u = p
    · exact h.exists_corner_ne holds hq level_q (start ▸ ne)
    · exact h.exists_corner_ne holds hp level_p start
  exact ⟨u, hu, v, hv, other.symm, level_u, level_v⟩

/-- Two corners at the end of a half plane that has all corners are next to each other: any others
on both ways between them would lie on different sides of their line. -/
theorem next_of_split (h : IsHull corners points) {side : HalfPlane}
    (holds : ∀ w ∈ corners, 0 ≤ side.level w)
    (split : corners = before ++ u :: (between ++ v :: after)) (level_u : side.level u = 0)
    (level_v : side.level v = 0) (ends : ∃ p, side.level p ≠ 0) :
    (u, v) ∈ sides corners ∨ (v, u) ∈ sides corners := by
  have convex := h.convex
  rw [split, List.triplewise_append] at convex
  obtain ⟨-, convex, first, -⟩ := convex
  obtain ⟨convex, -⟩ := List.triplewise_cons.1 convex
  obtain ⟨-, toAfter, toLast⟩ := List.pairwise_append.1 convex
  cases between with
  | nil => exact .inl (mem_sides_of_next split)
  | cons k between =>
    by_cases last : before = [] ∧ after = []
    · obtain ⟨rfl, rfl⟩ := last
      have split : corners = u :: (k :: between) ++ [v] := split
      exact .inr (mem_sides_of_ends split)
    have inside : turn u v k < 0 := by
      have convex_k : 0 < turn u k v := toLast k (by simp) v (by simp)
      rw [turn_swap] at convex_k
      omega
    obtain ⟨other, hother, outside⟩ : ∃ other ∈ corners, 0 < turn u v other := by
      rcases not_and_or.1 last with some_before | some_after
      · obtain ⟨other, hother⟩ := List.exists_mem_of_ne_nil before some_before
        have toV := (List.pairwise_cons.1 (first other hother)).1 v (by simp)
        exact ⟨other, by simp [split, hother], (turn_rotate other u v).symm ▸ toV⟩
      · obtain ⟨other, hother⟩ := List.exists_mem_of_ne_nil after some_after
        exact ⟨other, by simp [split, hother], (List.pairwise_cons.1 toAfter).1 other hother⟩
    obtain ⟨p, hp⟩ := ends
    exact absurd (level_eq_zero_of_both_sides level_u level_v (holds k (by simp [split]))
      (holds other hother) inside outside p) hp

theorem next_of_level_eq_zero (h : IsHull corners points) {side : HalfPlane}
    (holds : ∀ w ∈ corners, 0 ≤ side.level w) (hu : u ∈ corners) (hv : v ∈ corners) (ne : u ≠ v)
    (level_u : side.level u = 0) (level_v : side.level v = 0) (ends : ∃ p, side.level p ≠ 0) :
    (u, v) ∈ sides corners ∨ (v, u) ∈ sides corners := by
  obtain ⟨before, after, split⟩ := List.append_of_mem hu
  rw [split] at hv
  rcases List.mem_append.1 hv with hv | hv
  · obtain ⟨before', between, rfl⟩ := List.append_of_mem hv
    rw [List.append_assoc, List.cons_append] at split
    exact (h.next_of_split holds split level_v level_u ends).symm
  · obtain ⟨between, after', rfl⟩ := List.append_of_mem ((List.mem_cons.1 hv).resolve_left ne.symm)
    exact h.next_of_split holds split level_u level_v ends

theorem exists_side (h : IsHull corners points) (side : IsHullSide points u v) :
    ∃ s ∈ sides corners, s.1 ≠ s.2 ∧ turn u v s.1 = 0 ∧ turn u v s.2 = 0 := by
  have holds : ∀ w ∈ corners, 0 ≤ (HalfPlane.beside u v).level w := fun w hw => by
    rw [level_beside]
    exact side.beside w (h.known hw)
  have level_u : (HalfPlane.beside u v).level u = 0 := by rw [level_beside, turn_back]
  have level_v : (HalfPlane.beside u v).level v = 0 := by rw [level_beside, turn_self_right]
  obtain ⟨s, hs, t, ht, ne, level_s, level_t⟩ :=
    h.exists_two_corners holds side.start_mem side.end_mem side.ne level_u level_v
  have ends : ∃ p, (HalfPlane.beside u v).level p ≠ 0 := by
    refine ⟨⟨u.x - (v.y - u.y), u.y + (v.x - u.x)⟩, fun level_eq => side.ne ?_⟩
    refine (eq_of_distanceSq_le ?_).symm
    rw [← level_eq, level_beside]
    exact le_of_eq (by simp only [distanceSq, turn]; ring)
  rcases h.next_of_level_eq_zero holds hs ht ne level_s level_t ends with mem | mem
  · exact ⟨_, mem, ne, level_beside u v s ▸ level_s, level_beside u v t ▸ level_t⟩
  · exact ⟨_, mem, ne.symm, level_beside u v t ▸ level_t, level_beside u v s ▸ level_s⟩

/-- If not all points are the same, some side of the hull has a length. -/
theorem exists_proper (h : IsHull corners points) (hp : p ∈ points) (hq : q ∈ points)
    (ne : p ≠ q) : ∃ s ∈ sides corners, s.1 ≠ s.2 := by
  have nowhere : ∀ w, (HalfPlane.mk 0 0 0).level w = 0 := fun w => by simp [HalfPlane.level]
  obtain ⟨u, hu, v, hv, other, -⟩ :=
    h.exists_two_corners (fun w _ => (nowhere w).ge) hp hq ne (nowhere p) (nowhere q)
  by_contra! same
  have chain : corners.IsChain (· = ·) := by
    rw [List.isChain_iff_forall_rel_of_append_cons_cons]
    intro u v before after split
    exact same _ (mem_sides_of_next split)
  exact other ((List.isChain_iff_pairwise.1 chain).forall_of_forall (fun _ _ => rfl) hu hv)

end IsHull

/-- No two points of an image whose coordinates are words are taken for one. -/
theorem ofPoint_inj {p q : Point} (hp : p.x < UInt32.size ∧ p.y < UInt32.size)
    (hq : q.x < UInt32.size ∧ q.y < UInt32.size) (h : ofPoint p = ofPoint q) : p = q := by
  have word_inj : ∀ {m n : Nat}, m < UInt32.size → n < UInt32.size →
      Int.bmod m UInt32.size = Int.bmod n UInt32.size → m = n := fun hm hn same => by
    have residues := congrArg (· % ((UInt32.size : Nat) : Int)) same
    simp only [Int.bmod_emod] at residues
    rwa [Int.emod_eq_of_lt (Int.natCast_nonneg _) (Int.ofNat_lt.2 hm),
      Int.emod_eq_of_lt (Int.natCast_nonneg _) (Int.ofNat_lt.2 hn), Int.natCast_inj] at residues
  obtain ⟨x_eq, y_eq⟩ := (Vertex.mk.injEq ..).mp h
  cases p
  cases q
  rw [Point.mk.injEq]
  exact ⟨word_inj hp.1 hq.1 x_eq, word_inj hp.2 hq.2 y_eq⟩

/-- Coordinates below half of the words keep their value. -/
theorem ofPoint_eq {p : Point} (hx : p.x < 2 ^ 31) (hy : p.y < 2 ^ 31) :
    ofPoint p = ⟨p.x, p.y⟩ := by
  have low : ((UInt32.size : Nat) : Int) / 2 = 2 ^ 31 := by decide
  have high : (((UInt32.size : Nat) : Int) + 1) / 2 = 2 ^ 31 := by decide
  have keep : ∀ {n : Nat}, n < 2 ^ 31 → Int.bmod n UInt32.size = n := fun hn =>
    Int.bmod_eq_of_le (by rw [low]; omega) (by rw [high]; omega)
  have x_eq := keep hx
  have y_eq := keep hy
  unfold ofPoint
  rw [x_eq, y_eq]

end Vertex

namespace TiltedRect

theorem RunsAlong.of_parallel {rect : TiltedRect ℝ} {dx dy dx' dy' : ℝ} (h : rect.RunsAlong dx dy)
    (long : dx ≠ 0 ∨ dy ≠ 0) (parallel : dx * dy' = dy * dx') : rect.RunsAlong dx' dy' := by
  simp only [RunsAlong] at *
  rcases long with nonzero | nonzero
  · refine mul_right_cancel₀ nonzero ?_
    linear_combination Real.cos rect.angle * parallel + dx' * h
  · refine mul_right_cancel₀ nonzero ?_
    linear_combination Real.sin rect.angle * parallel + dy' * h

variable [Exact]

theorem positionOf_eq (p : Point) : (positionOf p : Position ℝ) = ((p.x : ℝ), (p.y : ℝ)) := rfl

theorem dot_eq (p : Position ℝ) : dot p = ⟨p.1, p.2, 0, 0, 0⟩ := by
  have zero : (Scalar.ofNat 0 : ℝ) = 0 := Nat.cast_zero
  rw [dot, zero]

theorem Tight.dot {points : List (Position ℝ)} {p : Position ℝ} (hp : p ∈ points)
    (same : ∀ q ∈ points, q = p) : (dot p).Tight points := by
  have at_center : (TiltedRect.dot p).lengthwise p = 0 ∧ (TiltedRect.dot p).crosswise p = 0 := by
    simp [dot_eq, lengthwise, crosswise, coordinate]
  have flat : (TiltedRect.dot p).width = 0 ∧ (TiltedRect.dot p).height = 0 := by simp [dot_eq]
  refine ⟨fun q hq => ?_, ⟨p, hp, ?_⟩, ⟨p, hp, ?_⟩, ⟨p, hp, ?_⟩, ⟨p, hp, ?_⟩⟩
  · rw [same q hq]
    exact ⟨by simp [at_center, flat], by simp [at_center, flat]⟩
  all_goals simp [at_center, flat]

variable {first : Point} {rest : List Point}

/-- The side of the hull along a line proposes the tight rectangle along it. -/
theorem exists_tight_along {corners points : List Vertex} {u v : Vertex} {start : Position ℝ}
    {others : List (Position ℝ)} {bound : ℝ} (hull : Vertex.IsHull corners points)
    (leads : ∀ side ∈ sides corners, side.1 ≠ side.2 → ∃ rect,
      alongSide? side start others = some rect ∧ bound ≤ rect.area + slack)
    (along : Vertex.IsHullSide points u v) :
    ∃ best : TiltedRect ℝ, best.Tight (start :: others) ∧ best.RunsAlong (v.x - u.x) (v.y - u.y) ∧
      bound ≤ best.area + 1 / 10 ^ 9 := by
  obtain ⟨side, hside, proper, start_on, end_on⟩ := hull.exists_side along
  obtain ⟨best, found, area_le⟩ := leads side hside proper
  obtain ⟨tight, runs⟩ := tight_of_alongSide? found
  have parallel : sideX side * (v.y - u.y) = sideY side * (v.x - u.x) := by
    rw [Vertex.turn] at start_on end_on
    simp only [sideX, sideY]
    exact_mod_cast (by linear_combination start_on - end_on :
      (side.2.x - side.1.x) * (v.y - u.y) = (side.2.y - side.1.y) * (v.x - u.x))
  rw [slack_eq] at area_le
  exact ⟨best, tight, runs.of_parallel (sideX_ne_or_sideY_ne proper) parallel, area_le⟩

theorem around_cases (words : ∀ p ∈ first :: rest, p.x < UInt32.size ∧ p.y < UInt32.size) :
    (∀ p ∈ first :: rest, p = first) ∧ around (first :: rest) = dot (positionOf first : Position ℝ) ∨
    (∃ p ∈ first :: rest, p ≠ first) ∧
      (around (first :: rest)).Tight ((first :: rest).map positionOf : List (Position ℝ)) ∧
      ∀ u v, Vertex.IsHullSide ((first :: rest).map Vertex.ofPoint) u v →
        ∃ best : TiltedRect ℝ, best.Tight ((first :: rest).map positionOf) ∧
          best.RunsAlong (v.x - u.x) (v.y - u.y) ∧
          (around (first :: rest)).area ≤ best.area + 1 / 10 ^ 9 := by
  let corners := Vertex.hull ((first :: rest).map Vertex.ofPoint)
  have hull : Vertex.IsHull corners ((first :: rest).map Vertex.ofPoint) := Vertex.isHull_hull ..
  rcases smallestAlong_cases corners (positionOf first : Position ℝ) (rest.map positionOf) with
    ⟨degenerate, rect_eq⟩ | ⟨⟨side, hside, found⟩, leads⟩
  · refine .inl ⟨fun p hp => ?_, rect_eq⟩
    by_contra other
    obtain ⟨side, hside, proper⟩ := hull.exists_proper (List.mem_map_of_mem hp)
      (List.mem_map_of_mem List.mem_cons_self)
      fun same => other (Vertex.ofPoint_inj (words p hp) (words first List.mem_cons_self) same)
    exact proper (degenerate side hside)
  · refine .inr ⟨?_, (tight_of_alongSide? found).1, fun u v => exists_tight_along hull leads⟩
    by_contra! same
    have in_one : ∀ w ∈ corners, w = .ofPoint first := fun w hw => by
      obtain ⟨p, hp, rfl⟩ := List.mem_map.1 (hull.known hw)
      rw [same p hp]
    obtain ⟨start_mem, end_mem⟩ := mem_of_mem_sides hside
    rw [alongSide?_of_eq ((in_one _ start_mem).trans (in_one _ end_mem).symm)] at found
    cases found

theorem Tight.around (words : ∀ p ∈ first :: rest, p.x < UInt32.size ∧ p.y < UInt32.size) :
    (around (first :: rest)).Tight ((first :: rest).map positionOf : List (Position ℝ)) := by
  rcases around_cases words with ⟨same, rect_eq⟩ | ⟨-, tight, -⟩
  · rw [rect_eq]
    refine .dot (List.mem_map_of_mem List.mem_cons_self) fun q hq => ?_
    obtain ⟨p, hp, rfl⟩ := List.mem_map.1 hq
    rw [same p hp]
  · exact tight

/-- The rectangle around points encloses them and touches one with each of its sides, and no
rectangle that encloses them and runs along the hull of the points is smaller by more than a
billionth, however many sides the hull has. Around points that coincide it is just their position.
The hull is that of the points with their coordinates taken as signed words, which makes a
difference only from half of the words on. -/
theorem around_smallest (first : Point) (rest : List Point)
    (words : ∀ p ∈ first :: rest, p.x < UInt32.size ∧ p.y < UInt32.size) :
    let points := first :: rest
    let rect : TiltedRect ℝ := around points
    rect.Tight (points.map positionOf) ∧
    (∀ u v, Vertex.IsHullSide (points.map Vertex.ofPoint) u v → ∀ other : TiltedRect ℝ,
      other.RunsAlong (v.x - u.x) (v.y - u.y) →
      (∀ p ∈ points, other.Contains (positionOf p)) → rect.area ≤ other.area + 1 / 10 ^ 9) ∧
    (∀ p ∈ points, p.x < 2 ^ 31 → p.y < 2 ^ 31 → Vertex.ofPoint p = ⟨p.x, p.y⟩) ∧
    ((∀ p ∈ points, p = first) → rect = ⟨first.x, first.y, 0, 0, 0⟩) := by
  intro points rect
  refine ⟨.around words, fun u v side other along encloses => ?smallest,
    fun _ _ => Vertex.ofPoint_eq, fun same => ?dot⟩
  case smallest =>
    rcases around_cases words with ⟨same, -⟩ | ⟨-, -, leads⟩
    · obtain ⟨p, hp, rfl⟩ := List.mem_map.1 side.start_mem
      obtain ⟨q, hq, rfl⟩ := List.mem_map.1 side.end_mem
      exact absurd (by rw [same p hp, same q hq]) side.ne
    · obtain ⟨best, tight, along_best, area_le⟩ := leads u v side
      have far : (v.x - u.x : ℝ) ≠ 0 ∨ (v.y - u.y : ℝ) ≠ 0 := by
        have vector : sideX (u, v) ≠ 0 ∨ sideY (u, v) ≠ 0 := sideX_ne_or_sideY_ne side.ne
        simpa only [sideX, sideY, Int.cast_sub] using vector
      have best_le : best.area ≤ other.area := tight.area_le along_best along far fun q hq => by
        obtain ⟨p, hp, rfl⟩ := List.mem_map.1 hq
        exact encloses p hp
      linarith
  case dot =>
    rcases around_cases words with ⟨-, rect_eq⟩ | ⟨⟨p, hp, other⟩, -⟩
    · exact rect_eq.trans (dot_eq _)
    · exact absurd (same p hp) other

omit [Exact] in
/-- Three points at a right angle. -/
theorem around_right_angle :
    letI : Exact := .floored
    let points : List Point := [⟨0, 0⟩, ⟨4, 0⟩, ⟨0, 2⟩]
    let rect : TiltedRect ℝ := around points
    (∀ p ∈ points, p.x < UInt32.size ∧ p.y < UInt32.size) ∧
      rect.Tight (points.map positionOf) ∧ rect.area ≤ 8 + 1 / 10 ^ 9 := by
  let : Exact := .floored
  intro points rect
  have words : ∀ p ∈ points, p.x < UInt32.size ∧ p.y < UInt32.size := by decide
  have base : Vertex.IsHullSide (points.map Vertex.ofPoint) ⟨0, 0⟩ ⟨4, 0⟩ :=
    ⟨by decide, by decide, by decide, by decide⟩
  let upright : TiltedRect ℝ := ⟨2, 1, 4, 2, 0⟩
  have encloses : ∀ p ∈ points, upright.Contains (positionOf p) := by
    simp only [points, List.forall_mem_cons, positionOf_eq, upright]
    refine ⟨⟨?_, ?_⟩, ⟨?_, ?_⟩, ⟨?_, ?_⟩, by simp⟩ <;>
      norm_num [lengthwise, crosswise, coordinate, abs_le]
  obtain ⟨tight, smallest, -, -⟩ := around_smallest ⟨0, 0⟩ [⟨4, 0⟩, ⟨0, 2⟩] words
  have area_eq : upright.area = 8 := by
    show (4 : ℝ) * 2 = 8
    norm_num
  refine ⟨words, tight, area_eq ▸ smallest _ _ base upright ?_ encloses⟩
  simp [RunsAlong, upright]

end TiltedRect

end ObjectTracking
