import ObjectTracking.Proofs.Shape.Smallest
import ObjectTracking.Proofs.Shape.Acceptance
import ObjectTracking.Proofs.Shape.Normal

/-!
# Straight blobs

A blob is straight if its points lie on one line (`Blob.straight_iff_onLine`). All sides of its
hull run along this line, so the rectangle along any of them has no extent across it, and no sample
is due from the shape (`Blob.flat_of_keepsDirections`). That the hull takes coordinates as signed
words makes a difference only where these words jump between points of the blob; there its sides may
lead anywhere (`Blob.acrossTheJump`).
-/

namespace ObjectTracking

open Exact TiltedRect

/-- A point with its own coordinates. -/
def Point.vertex (p : Point) : Vertex := ⟨p.x, p.y⟩

/-- No three points of the blob make a turn. -/
def Blob.Straight (blob : Blob) : Prop :=
  ∀ p ∈ blob.points.toList, ∀ q ∈ blob.points.toList, ∀ r ∈ blob.points.toList,
    Vertex.turn p.vertex q.vertex r.vertex = 0

instance (blob : Blob) : Decidable blob.Straight :=
  inferInstanceAs (Decidable (∀ p ∈ blob.points.toList, ∀ q ∈ blob.points.toList,
    ∀ r ∈ blob.points.toList, Vertex.turn p.vertex q.vertex r.vertex = 0))

/-- Taken as signed words, the coordinates of the points have the differences they really have. -/
def Unbroken (points : List Point) : Prop :=
  ∀ p ∈ points, ∀ q ∈ points, (Vertex.ofPoint q).x - (Vertex.ofPoint p).x = q.x - p.x ∧
    (Vertex.ofPoint q).y - (Vertex.ofPoint p).y = q.y - p.y

/-- Taken as signed words, points lie in directions from each other in which points really do. -/
def KeepsDirections (points : List Point) : Prop :=
  ∀ p ∈ points, ∀ q ∈ points, ∀ r ∈ points, ∀ s ∈ points,
    ((Vertex.ofPoint q).x - (Vertex.ofPoint p).x) * ((s.y : Int) - r.y) =
      ((Vertex.ofPoint q).y - (Vertex.ofPoint p).y) * ((s.x : Int) - r.x)

/-! ### Lines -/

namespace Blob
variable {blob : Blob}

theorem Straight.cross {p q r s : Point} (h : blob.Straight) (hp : p ∈ blob.points.toList)
    (hq : q ∈ blob.points.toList) (hr : r ∈ blob.points.toList) (hs : s ∈ blob.points.toList) :
    ((q.x : Int) - p.x) * ((s.y : Int) - r.y) = ((q.y : Int) - p.y) * ((s.x : Int) - r.x) := by
  have toS := h p hp q hq s hs
  have toR := h p hp q hq r hr
  simp only [Vertex.turn, Point.vertex] at toS toR
  linear_combination toS - toR

/-- One or two points are on a line. -/
theorem straight_of_size_le_two (few : blob.size ≤ 2) : blob.Straight := by
  obtain ⟨classId, points, rfl⟩ : ∃ classId points, blob = ⟨classId, List.toArray points⟩ :=
    ⟨blob.classId, blob.points.toList, rfl⟩
  have few : points.length ≤ 2 := few
  match points, few with
  | [], _ => exact nofun
  | [p], _ => simp [Straight]
  | [p, q], _ => simp [Straight]

/-- No three points make a turn exactly if all lie on one line of the plane. -/
theorem straight_iff_onLine : blob.Straight ↔ ∃ o v : ℝ × ℝ, ∀ p ∈ blob.points.toList, ∃ t : ℝ,
    (p.x : ℝ) = o.1 + t * v.1 ∧ (p.y : ℝ) = o.2 + t * v.2 := by
  constructor
  · intro straight
    by_cases same : ∀ o ∈ blob.points.toList, ∀ q ∈ blob.points.toList, q = o
    · cases h : blob.points.toList with
      | nil => exact ⟨0, 0, nofun⟩
      | cons o rest =>
        rw [h] at same
        refine ⟨(o.x, o.y), 0, fun p hp => ⟨0, ?_⟩⟩
        simp [same o List.mem_cons_self p hp]
    push Not at same
    obtain ⟨o, ho, q, hq, other⟩ := same
    refine ⟨(o.x, o.y), (q.x - o.x, q.y - o.y), fun r hr => ?_⟩
    have parallel : (q.x - o.x : ℝ) * (r.y - o.y) = (q.y - o.y) * (r.x - o.x) := by
      exact_mod_cast straight.cross ho hq ho hr
    by_cases level : (q.x - o.x : ℝ) = 0
    · have steep : (q.y - o.y : ℝ) ≠ 0 := fun y_eq => by
        rw [sub_eq_zero, Nat.cast_inj] at level y_eq
        cases q; cases o; simp_all
      refine ⟨(r.y - o.y) / (q.y - o.y), ?_, ?_⟩ <;> field_simp <;> linarith
    · refine ⟨(r.x - o.x) / (q.x - o.x), ?_, ?_⟩ <;> field_simp <;> linarith
  · rintro ⟨o, v, onLine⟩ p hp q hq r hr
    obtain ⟨a, px, py⟩ := onLine p hp
    obtain ⟨b, qx, qy⟩ := onLine q hq
    obtain ⟨c, rx, ry⟩ := onLine r hr
    have turn_eq : ((q.x - p.x) * (r.y - q.y) - (q.y - p.y) * (r.x - q.x) : ℝ) = 0 := by
      rw [px, py, qx, qy, rx, ry]
      ring
    simp only [Vertex.turn, Point.vertex]
    exact_mod_cast turn_eq

end Blob

/-! ### Words that keep the line -/

section
variable {points : List Point}

/-- So they do up to half of the words. -/
theorem unbroken_of_low (low : ∀ p ∈ points, p.x < 2 ^ 31 ∧ p.y < 2 ^ 31) : Unbroken points := by
  intro p hp q hq
  rw [Vertex.ofPoint_eq (low p hp).1 (low p hp).2, Vertex.ofPoint_eq (low q hq).1 (low q hq).2]
  exact ⟨rfl, rfl⟩

theorem Unbroken.keepsDirections {blob : Blob} (h : Unbroken blob.points.toList)
    (straight : blob.Straight) : KeepsDirections blob.points.toList := by
  intro p hp q hq r hr s hs
  rw [(h p hp q hq).1, (h p hp q hq).2]
  exact straight.cross hp hq hr hs

theorem keepsDirections_of_level (level : ∀ p ∈ points, ∀ q ∈ points, p.y = q.y) :
    KeepsDirections points := by
  intro p hp q hq r hr s hs
  have same : (Vertex.ofPoint p).y = (Vertex.ofPoint q).y := by
    dsimp only [Vertex.ofPoint]
    rw [level p hp q hq]
  rw [same, level r hr s hs, sub_self, sub_self, mul_zero, zero_mul]

theorem keepsDirections_of_upright (upright : ∀ p ∈ points, ∀ q ∈ points, p.x = q.x) :
    KeepsDirections points := by
  intro p hp q hq r hr s hs
  have same : (Vertex.ofPoint p).x = (Vertex.ofPoint q).x := by
    dsimp only [Vertex.ofPoint]
    rw [upright p hp q hq]
  rw [same, upright r hr s hs, sub_self, sub_self, mul_zero, zero_mul]

end

/-! ### The shape of a line -/

namespace TiltedRect
variable [Exact] {corners : List Vertex} {first : Point} {rest : List Point}

/-- The rectangle along a side that is parallel to all points has no extent across it. -/
theorem height_of_alongSide? {side : Vertex × Vertex} {points : List (Position ℝ)}
    {start : Position ℝ} {rect : TiltedRect ℝ} (found : alongSide? side start points = some rect)
    (proper : side.1 ≠ side.2)
    (parallel : ∀ p ∈ start :: points, ∀ q ∈ start :: points,
      sideX side * (q.2 - p.2) = sideY side * (q.1 - p.1)) :
    rect.height = 0 ∧ 0 ≤ rect.width := by
  obtain ⟨tight, runs⟩ := tight_of_alongSide? found
  obtain ⟨p, hp, left⟩ := tight.left
  obtain ⟨q, hq, right⟩ := tight.right
  have same := runs.of_parallel (sideX_ne_or_sideY_ne proper) (parallel q hq p hp)
  simp only [RunsAlong, crosswise, coordinate] at same left right
  have inside := (tight.encloses p hp).lengthwise
  exact ⟨by linarith, by linarith [abs_nonneg (rect.lengthwise p)]⟩

/-- Whatever polygon is taken for the hull, as long as its corners are among the points. -/
theorem height_smallestAlong (known : ∀ v ∈ corners, v ∈ (first :: rest).map Vertex.ofPoint)
    (keeps : KeepsDirections (first :: rest)) :
    let rect : TiltedRect ℝ := smallestAlong corners (positionOf first) (rest.map positionOf)
    rect.height = 0 ∧ 0 ≤ rect.width := by
  intro rect
  rcases smallestAlong_cases corners (positionOf first : Position ℝ) (rest.map positionOf) with
    ⟨-, rect_eq⟩ | ⟨⟨side, hside, found⟩, -⟩
  · rw [show rect = _ from rect_eq, dot_eq]
    exact ⟨rfl, le_rfl⟩
  · obtain ⟨start_mem, end_mem⟩ := mem_of_mem_sides hside
    obtain ⟨p, hp, start_eq⟩ := List.mem_map.1 (known _ start_mem)
    obtain ⟨q, hq, end_eq⟩ := List.mem_map.1 (known _ end_mem)
    have proper : side.1 ≠ side.2 := fun same => by
      rw [alongSide?_of_eq same] at found
      nomatch found
    refine height_of_alongSide? found proper fun a ha b hb => ?_
    obtain ⟨r, hr, rfl⟩ := List.mem_map.1 (show a ∈ (first :: rest).map positionOf from ha)
    obtain ⟨s, hs, rfl⟩ := List.mem_map.1 (show b ∈ (first :: rest).map positionOf from hb)
    have cross := keeps p hp q hq r hr s hs
    rw [start_eq, end_eq] at cross
    simp only [sideX, sideY, positionOf_eq]
    exact_mod_cast cross

theorem height_around {points : List Point} (keeps : KeepsDirections points) :
    (around points : TiltedRect ℝ).height = 0 ∧ 0 ≤ (around points : TiltedRect ℝ).width := by
  cases points with
  | nil =>
    rw [around, dot_eq]
    exact ⟨rfl, le_rfl⟩
  | cons first rest =>
    exact height_smallestAlong (fun _ hv => (Vertex.isHull_hull _ _).known hv) keeps

end TiltedRect

/-- The shape of the blob has no width, and so, whatever outline is taken for solid and whatever
the stride, no sample is due from it. -/
def Blob.Flat [Exact] (blob : Blob) : Prop :=
  ∃ shape : Shape ℝ, Shape.ofBlob? .rectangle blob = some shape ∧ shape.width = 0 ∧
    ∀ model : ConfidenceModel, model.Known → ∀ stride,
      Confidence.ofShape model shape stride = .degenerate

theorem Blob.flat_of_keepsDirections [Exact] {blob : Blob}
    (keeps : KeepsDirections blob.points.toList) : blob.Flat := by
  obtain ⟨flat, width_nonneg⟩ := height_around keeps
  refine ⟨_, rfl, ?_⟩
  rw [Shape.ofRect_eq, flat, min_eq_right width_nonneg, max_eq_left width_nonneg]
  refine ⟨rfl, fun model known stride => ?_⟩
  have no_area : ∀ height, model.area 0 height = 0 := fun height => by
    cases model <;> simp [ConfidenceModel.area]
  rw [Confidence.ofShape_eq known _ le_rfl width_nonneg]
  refine Confidence.ofCounts_of_none_due ?_
  rw [ConfidenceModel.due, no_area, zero_div, Int.floor_zero]
  decide

/-! ### A line across the middle of the words -/

/-- Two points, four columns and four rows apart. As a signed word, the column of the second is the
least of all but two. -/
def Blob.acrossTheJump : Blob := ⟨1, #[⟨2147483646, 0⟩, ⟨2147483650, 4⟩]⟩

namespace TiltedRect
variable [Exact]

/-- The side of their hull runs almost level, as the words do. -/
theorem runsAlong_acrossTheJump :
    let rect : TiltedRect ℝ := around Blob.acrossTheJump.points.toList
    rect.Tight (Blob.acrossTheJump.points.toList.map positionOf) ∧
      rect.RunsAlong (-1073741823) 1 := by
  intro rect
  let first : Point := ⟨2147483646, 0⟩
  let second : Point := ⟨2147483650, 4⟩
  let u : Vertex := ⟨2147483646, 0⟩
  let v : Vertex := ⟨-2147483646, 4⟩
  have words : [first, second].map Vertex.ofPoint = [u, v] := by decide
  have hull : Vertex.IsHull (Vertex.hull [u, v]) [u, v] := Vertex.isHull_hull ..
  have rect_eq : rect = smallestAlong (Vertex.hull [u, v]) (positionOf first) [positionOf second] :=
    congrArg (smallestAlong · _ _) (congrArg Vertex.hull words)
  rw [rect_eq]
  rcases smallestAlong_cases (Vertex.hull [u, v]) (positionOf first : Position ℝ)
    [positionOf second] with ⟨degenerate, -⟩ | ⟨⟨side, hside, found⟩, -⟩
  · obtain ⟨side, hside, proper⟩ := hull.exists_proper (p := u) (q := v) (by simp) (by simp)
      (by decide)
    exact absurd (degenerate side hside) proper
  · obtain ⟨tight, runs⟩ := tight_of_alongSide? found
    refine ⟨tight, ?_⟩
    have proper : side.1 ≠ side.2 := fun same => by
      rw [alongSide?_of_eq same] at found
      nomatch found
    refine runs.of_parallel (sideX_ne_or_sideY_ne proper) ?_
    obtain ⟨start_mem, end_mem⟩ := mem_of_mem_sides hside
    have ends : ∀ w ∈ Vertex.hull [u, v], w = u ∨ w = v := fun w hw => by
      simpa using hull.known hw
    obtain ⟨start, stop⟩ := side
    rcases ends start start_mem with rfl | rfl <;> rcases ends stop end_mem with rfl | rfl <;>
      norm_num [sideX, sideY, u, v]

theorem one_le_area_acrossTheJump :
    let rect : TiltedRect ℝ := around Blob.acrossTheJump.points.toList
    1 ≤ rect.width * rect.height := by
  intro rect
  obtain ⟨tight, runs⟩ := runsAlong_acrossTheJump
  have start := tight.encloses (positionOf ⟨2147483646, 0⟩) (by simp [Blob.acrossTheJump])
  have stop := tight.encloses (positionOf ⟨2147483650, 4⟩) (by simp [Blob.acrossTheJump])
  obtain ⟨width_ge, height_ge⟩ := stop.abs_sub_le start
  have unit := Real.cos_sq_add_sin_sq rect.angle
  simp only [RunsAlong, lengthwise, crosswise, coordinate, positionOf_eq] at runs width_ge height_ge
  change _ ≤ rect.width at width_ge
  change _ ≤ rect.height at height_ge
  generalize Real.cos rect.angle = c at *
  generalize Real.sin rect.angle = s at *
  have product := mul_le_mul width_ge height_ge (abs_nonneg _) ((abs_nonneg _).trans width_ge)
  rw [← abs_mul] at product
  obtain rfl : c = -1073741823 * s := by linarith
  have small : s ^ 2 * (1073741823 ^ 2 + 1) = 1 := by linear_combination unit
  refine le_trans ?_ ((le_abs_self _).trans product)
  calc (1 : ℝ) = s ^ 2 * (1073741823 ^ 2 + 1) := small.symm
    _ ≤ s ^ 2 * (16 * (1073741823 ^ 2 - 1)) :=
      mul_le_mul_of_nonneg_left (by norm_num) (sq_nonneg s)
    _ = _ := by push_cast; ring

end TiltedRect

/-- Two points are a line, but here the rectangle around them has both sides, and the shape a
score. -/
theorem Blob.straight_across_the_jump :
    letI : Exact := .floored
    Blob.acrossTheJump.Straight ∧
      ∃ shape : Shape ℝ, Shape.ofBlob? .rectangle Blob.acrossTheJump = some shape ∧
        shape.width ≠ 0 ∧ ∃ value, Confidence.ofShape .rectangle shape 1 = .score value := by
  let : Exact := .floored
  let rect : TiltedRect ℝ := around acrossTheJump.points.toList
  let shape : Shape ℝ := Shape.ofRect rect acrossTheJump.size
  have solid : 1 ≤ shape.width * shape.height := by
    rw [show shape = _ from Shape.ofRect_eq .., min_mul_max]
    exact one_le_area_acrossTheJump
  have some_point : 0 < shape.pointCount := by
    rw [show shape = _ from Shape.ofRect_eq ..]
    decide
  have wide : shape.width ≠ 0 := fun flat => by
    rw [flat, zero_mul] at solid
    exact zero_lt_one.not_ge solid
  obtain ⟨value, scored, -⟩ := Confidence.exists_score solid some_point
  exact ⟨by decide, shape, rfl, wide, value, scored⟩

end ObjectTracking
