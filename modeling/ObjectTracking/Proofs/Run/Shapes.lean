import ObjectTracking.Proofs.Run.Accounting
import ObjectTracking.Proofs.Shape.Acceptance
import ObjectTracking.Proofs.Shape.Center
import ObjectTracking.Proofs.Shape.Normal
import ObjectTracking.Proofs.Shape.Smallest

/-!
# Shapes in a run

A blob is made of samples, and these lie in the frame (`ClassState.contains_of_mem_found`). A
detection is the rectangle around such a blob, in normal form (`Pipeline.fittedTo_of_detection`),
and so what holds of these rectangles holds of everything that is handed on in a run.
-/

namespace ObjectTracking

open Exact TiltedRect

/-! ### Blobs in the frame -/

theorem ClassState.contains_of_mem_found {α : Type} {c : ClassState α} (valid : c.grid.Valid)
    {tunables : Tunables α} {scanner : Scanner} {frame : Frame} {colors : ColorStats} {blob : Blob}
    (h : blob ∈ (c.found (scanner.scan frame.upright.hsv colors) tunables).2) :
    blob.points.toList ≠ [] ∧ ∀ q ∈ blob.points.toList, frame.uprightImage.Contains q := by
  set samples := scanner.scan frame.upright.hsv colors
  have spread : samples.Spread := scanner.spread_scan frame colors
  have formed := (List.mem_filter.1 (LabelGrid.mem_of_mem_largest h)).1
  have scanned := LabelGrid.scanned_extract (c.labels samples) c.settings.id samples.phase
    (Nat.lt_of_lt_of_le Nat.one_pos (Nat.le_max_right samples.stride 1))
  obtain ⟨seed, -, held, component⟩ := scanned.component blob (List.mem_reverse.2 formed)
  have seed_mem : seed ∈ blob.area := (component.mem_area seed).2 .refl
  refine ⟨List.ne_nil_of_mem (Array.mem_toList_iff.2 seed_mem), fun q hq => ?_⟩
  have linked := (component.mem_area q).1 (Array.mem_toList_iff.1 hq)
  have carried := LabelGrid.carries_iff.2 (LabelGrid.Linked.held linked held)
  rw [ClassState.labels, SampleSet.carries_classifyInto spread valid] at carried
  obtain ⟨s, hs, rfl, -⟩ := carried
  exact spread.inside s.point (List.mem_map_of_mem hs)

/-- The upright box of points of an image is in the image. -/
theorem TiltedRect.InBox.in_image {β : Type} [Exact] {image : Image β} {points : List Point}
    {rect : TiltedRect ℝ} (box : InBox (points.map positionOf) rect.center)
    (inside : ∀ q ∈ points, image.Contains q) :
    0 ≤ rect.centerX ∧ rect.centerX ≤ image.width - 1 ∧ 0 ≤ rect.centerY ∧
      rect.centerY ≤ image.height - 1 := by
  have bounds : ∀ q ∈ points.map positionOf, (0 : ℝ) ≤ q.1 ∧ (0 : ℝ) ≤ q.2 ∧
      q.1 ≤ image.width - 1 ∧ q.2 ≤ image.height - 1 := fun q hq => by
    obtain ⟨point, hpoint, rfl⟩ := List.mem_map.1 hq
    obtain ⟨x_lt, y_lt⟩ := inside point hpoint
    have x_le : (point.x : ℝ) + 1 ≤ image.width := by exact_mod_cast x_lt
    have y_le : (point.y : ℝ) + 1 ≤ image.height := by exact_mod_cast y_lt
    rw [positionOf_eq]
    exact ⟨Nat.cast_nonneg _, Nat.cast_nonneg _, le_sub_iff_add_le.2 x_le,
      le_sub_iff_add_le.2 y_le⟩
  obtain ⟨right, hright, right_le⟩ := box.right
  obtain ⟨left, hleft, le_left⟩ := box.left
  obtain ⟨low, hlow, low_le⟩ := box.below
  obtain ⟨high, hhigh, le_high⟩ := box.above
  exact ⟨(bounds right hright).1.trans right_le, le_left.trans (bounds left hleft).2.2.1,
    (bounds low hlow).2.1.trans low_le, le_high.trans (bounds high hhigh).2.2.2⟩

theorem TiltedRect.one_le_area_of_square {rect : TiltedRect ℝ}
    (encloses : ∀ p ∈ [((0 : ℝ), (0 : ℝ)), (0, 1), (1, 0), (1, 1)], rect.Contains p) :
    1 ≤ rect.width * rect.height := by
  simp only [List.forall_mem_cons] at encloses
  obtain ⟨origin, low, right, far, -⟩ := encloses
  obtain ⟨width_far, height_far⟩ := far.abs_sub_le origin
  obtain ⟨width_other, height_other⟩ := right.abs_sub_le low
  simp only [lengthwise, crosswise, coordinate] at *
  have unit := Real.cos_sq_add_sin_sq rect.angle
  generalize Real.cos rect.angle = c at *
  generalize Real.sin rect.angle = s at *
  -- of the two diagonals one is long along the rectangle, and one across it
  have long : 1 ≤ |c + s| ∨ 1 ≤ |c - s| := by
    by_contra! short
    have plus : (c + s) ^ 2 < 1 := (sq_lt_one_iff_abs_lt_one _).2 short.1
    have minus : (c - s) ^ 2 < 1 := (sq_lt_one_iff_abs_lt_one _).2 short.2
    linarith
  have diagonals : |c + s| ≤ rect.width ∧ |c - s| ≤ rect.height ∧ |c - s| ≤ rect.width ∧
      |c + s| ≤ rect.height := by
    refine ⟨le_of_eq_of_le ?_ width_far, le_of_eq_of_le ?_ height_far,
      le_of_eq_of_le ?_ width_other, le_of_eq_of_le ?_ height_other⟩
    · congr 1; ring
    · congr 1; ring
    · congr 1; ring
    · rw [← abs_neg]; congr 1; ring
  have width_ge : 1 ≤ rect.width := long.elim (le_trans · diagonals.1) (le_trans · diagonals.2.2.1)
  have height_ge : 1 ≤ rect.height :=
    long.elim (le_trans · diagonals.2.2.2) (le_trans · diagonals.2.1)
  exact one_le_mul_of_one_le_of_one_le width_ge height_ge

namespace Pipeline

open Shape

variable [Exact] {p : Pipeline ℝ} {frame : Frame} {points : List Point} {d : Detection ℝ}

/-- The detection is the rectangle around some points of the frame, in normal form and placed from
the middle of the image, to the right and upward. -/
structure FittedTo (frame : Frame) (points : List Point) (d : Detection ℝ) : Prop where
  some_point : points ≠ []
  inside : ∀ q ∈ points, frame.uprightImage.Contains q
  x_eq : d.x = (around points).centerX - frame.uprightImage.width / 2
  y_eq : d.y = frame.uprightImage.height / 2 - (around points).centerY
  width_eq : d.width = min (around points).width (around points).height
  height_eq : d.height = max (around points).width (around points).height
  degrees_eq : d.rotationDegrees = rotationDegrees (foldAngle (around points).longAxis)
  points_eq : d.points = points.length

theorem fittedTo_of_detection (valid : p.GridsValid) (h : .detection d ∈ p.itemsFor frame) :
    ∃ points, FittedTo frame points d := by
  obtain ⟨c, hc, s, hs, -, rfl⟩ := sighting_of_detection h
  have accepts := (ClassState.accepts_of_mem_sightings hs).1
  obtain ⟨some_point, inside⟩ := ClassState.contains_of_mem_found (valid c hc)
    (List.mem_of_getElem? accepts.found)
  have fitted := accepts.fitted
  cases model : c.settings.shapeModel with
  | unknown =>
    rw [model] at fitted
    cases fitted
  | rectangle =>
    rw [model] at fitted
    have shape_eq : ofRect (around s.blob.points.toList) s.blob.size = s.shape :=
      Option.some.inj fitted
    have two : (Scalar.ofNat 2 : ℝ) = 2 := Nat.cast_ofNat
    refine ⟨s.blob.points.toList, some_point, inside, ?_, ?_, ?_, ?_, ?_, ?_⟩ <;>
      simp only [detectionOf, Sighting.hit, ← shape_eq, ofRect_eq, two, Array.length_toList]
    all_goals rfl

namespace FittedTo

theorem in_frame (h : FittedTo frame points d) :
    -(frame.uprightImage.width / 2 : ℝ) ≤ d.x ∧ d.x ≤ frame.uprightImage.width / 2 - 1 ∧
      1 - (frame.uprightImage.height / 2 : ℝ) ≤ d.y ∧ d.y ≤ frame.uprightImage.height / 2 := by
  obtain ⟨first, rest, rfl⟩ := List.exists_cons_of_ne_nil h.some_point
  obtain ⟨x_nonneg, x_le, y_nonneg, y_le⟩ := (InBox.around first rest).in_image h.inside
  rw [h.x_eq, h.y_eq]
  refine ⟨?_, ?_, ?_, ?_⟩ <;> linarith

theorem degrees_mem (h : FittedTo frame points d) : d.rotationDegrees ∈ Set.Ico 0 180 := by
  rw [h.degrees_eq]
  exact rotationDegrees_mem (foldAngle_mem _)

end FittedTo

theorem fittedTo_of_process {camera : Camera} {tunables : Tunables ℝ} {before : List Action}
    {p' : Pipeline ℝ} {report : Report ℝ} {items : List (Item ℝ)}
    (used : ((start camera tunables).run before).1.process frame = (p', items, .ok report))
    (h : .detection d ∈ items) : ∃ points, FittedTo frame points d := by
  obtain ⟨-, -, -, rfl⟩ := of_process_eq_ok used
  exact fittedTo_of_detection ((GridsValid.start camera tunables).run before) h

/-! ### A square of four pixels -/

omit [Exact] in
/-- A class that takes every pixel for its object finds the square of all four pixels, and on the
second frame this is confirmed. -/
theorem exists_published :
    letI : Exact := .floored
    let tunables : Tunables ℝ := ⟨1, 2, 3, 0, 1, 1, 0, 0⟩
    let gate : ClassSettings := .usual "gate" 1 .forward "gate.txt"
    let dark : Frame := ⟨.forward, .epoch, .filled 2 2 ⟨0, 0, 0⟩⟩
    let before : List Action := [.add gate fun _ => .object 1, .frame dark]
    ∃ p' report items d,
      ((start .forward tunables).run before).1.process dark = (p', items, .ok report) ∧
        .detection d ∈ items := by
  let : Exact := .floored
  intro tunables gate dark before
  let points : List Point := [⟨0, 0⟩, ⟨0, 1⟩, ⟨1, 0⟩, ⟨1, 1⟩]
  let shape : Shape ℝ := ofRect (around points) 4
  obtain ⟨value, scored, pos⟩ : ∃ value, Confidence.ofShape .rectangle shape 1 = .score value ∧
      0 < value := by
    have tight := Tight.around (show ∀ p ∈ points, p.x < UInt32.size ∧ p.y < UInt32.size by decide)
    have shape_eq : shape = _ := ofRect_eq (around points) 4
    refine Confidence.exists_score ?_ (by rw [shape_eq]; decide)
    rw [shape_eq, min_mul_max]
    exact one_le_area_of_square (by simpa [points, positionOf_eq] using tight.encloses)
  have accepts : ClassState.accepted? gate tunables 1 ⟨1, points.toArray⟩ = some (shape, value) :=
    ClassState.accepted?_eq_some rfl scored (lt_iff.2 pos)
  have no_distance : (Scalar.hypot 0 0 : ℝ) = 0 :=
    (congrArg Real.sqrt (by norm_num)).trans Real.sqrt_zero
  have near : Scalar.le (Scalar.hypot (shape.centerX - shape.centerX)
      (shape.centerY - shape.centerY)) tunables.distanceTolerance = true := by
    rw [sub_self, sub_self, no_distance]
    exact le_iff.2 le_rfl
  obtain ⟨c, t, d, enabled_eq, -, -, -, -, fits, detected⟩ := square_seen_twice 0 0 accepts near
  have known := enabled_eq ▸ List.mem_singleton_self c
  exact ⟨_, _, _, d, process_of_fits fits, mem_items_of_detectionsBy fits known detected⟩

/-- The center of the rectangle along whichever side lies in the upright box of the points, and so
does that of the rectangle that is taken in the end. In every run, a detection on a frame is the
rectangle around points of the frame, placed from the middle of the image, to the right and upward;
so it lies in the frame, from its first column to the last and from its first row to the last. -/
theorem detections_in_frame :
    (∀ (first : Position ℝ) (rest : List (Position ℝ)) (side : Vertex × Vertex)
      (rect : TiltedRect ℝ), alongSide? side first rest = some rect →
        InBox (first :: rest) rect.center) ∧
    (∀ (first : Point) (rest : List Point),
      InBox ((first :: rest).map positionOf) (around (first :: rest)).center) ∧
    ∀ (camera : Camera) (tunables : Tunables ℝ) (before : List Action) (frame : Frame)
      (p' : Pipeline ℝ) (report : Report ℝ) (items : List (Item ℝ)),
      ((start camera tunables).run before).1.process frame = (p', items, .ok report) →
        ∀ d, .detection d ∈ items →
          let W : ℝ := frame.uprightImage.width
          let H : ℝ := frame.uprightImage.height
          (∃ points, FittedTo frame points d) ∧
            -(W / 2) ≤ d.x ∧ d.x ≤ W / 2 - 1 ∧ 1 - H / 2 ≤ d.y ∧ d.y ≤ H / 2 := by
  refine ⟨fun _ _ _ _ => .alongSide, .around, ?_⟩
  intro camera tunables before frame p' report items used d h
  obtain ⟨points, fitted⟩ := fittedTo_of_process used h
  exact ⟨⟨points, fitted⟩, fitted.in_frame⟩

omit [Exact] in
/-- The side of a triangle, and the square of four pixels. -/
theorem center_of_square :
    letI : Exact := .floored
    let tunables : Tunables ℝ := ⟨1, 2, 3, 0, 1, 1, 0, 0⟩
    let gate : ClassSettings := .usual "gate" 1 .forward "gate.txt"
    let dark : Frame := ⟨.forward, .epoch, .filled 2 2 ⟨0, 0, 0⟩⟩
    let before : List Action := [.add gate fun _ => .object 1, .frame dark]
    let side : Vertex × Vertex := (⟨0, 0⟩, ⟨3, 4⟩)
    (∃ rect : TiltedRect ℝ, alongSide? side (0, 0) [(3, 4), (0, 1)] = some rect ∧
      InBox [(0, 0), (3, 4), (0, 1)] rect.center) ∧
    ∃ p' report items d,
      ((start .forward tunables).run before).1.process dark = (p', items, .ok report) ∧
        .detection d ∈ items ∧ -1 ≤ d.x ∧ d.x ≤ 0 ∧ 0 ≤ d.y ∧ d.y ≤ 1 := by
  let : Exact := .floored
  intro tunables gate dark before side
  have proper : side.1 ≠ side.2 := by decide
  obtain ⟨sides, -, published⟩ := detections_in_frame
  obtain ⟨rect, found⟩ := exists_alongSide? proper ((0, 0) : Position ℝ) [(3, 4), (0, 1)]
  obtain ⟨p', report, items, d, used, detected⟩ := exists_published
  have inside : -(((2 : ℕ) : ℝ) / 2) ≤ d.x ∧ d.x ≤ ((2 : ℕ) : ℝ) / 2 - 1 ∧
      1 - ((2 : ℕ) : ℝ) / 2 ≤ d.y ∧ d.y ≤ ((2 : ℕ) : ℝ) / 2 :=
    (published _ _ _ _ _ _ _ used d detected).2
  rw [Nat.cast_ofNat, div_self two_ne_zero, sub_self] at inside
  exact ⟨⟨rect, found, sides _ _ _ _ found⟩, p', report, items, d, used, detected, inside⟩

/-- Shapes are in a normal form. An axis is folded into the half circle from minus a quarter turn
on, to the angle there that differs from it by half turns, whichever of these angles it is given by.
The shape of a rectangle has its center, the shorter of its sides as width and the longer as height,
and the axis of the latter as rotation; it is the same for every description of the rectangle, from
either side if these differ, and with any number of half turns more. So all rotations that are
published in a run lie from 0 up to 180 degrees. -/
theorem shapes_canonical :
    (∀ angle : ℝ, foldAngle angle ∈ Set.Ico (-(halfTurn / 2)) (halfTurn / 2) ∧
      SameAxis (foldAngle angle) angle ∧ foldAngle (foldAngle angle) = foldAngle angle ∧
      ∀ k : ℤ, foldAngle (angle + k * halfTurn) = foldAngle angle) ∧
    (∀ (rect : TiltedRect ℝ) (pointCount : Nat),
      let shape := ofRect rect pointCount
      shape.centerX = rect.centerX ∧ shape.centerY = rect.centerY ∧
      shape.pointCount = pointCount ∧
      shape.width = min rect.width rect.height ∧ shape.height = max rect.width rect.height ∧
      shape.rotation ∈ Set.Ico (-(halfTurn / 2)) (halfTurn / 2) ∧
      SameAxis shape.rotation rect.longAxis ∧
      (rect.width ≠ rect.height → ofRect rect.fromOtherSide pointCount = shape) ∧
      ∀ k : ℤ, ofRect (rect.turnedBy k) pointCount = shape) ∧
    ∀ (camera : Camera) (tunables : Tunables ℝ) (before : List Action) (frame : Frame)
      (p' : Pipeline ℝ) (report : Report ℝ) (items : List (Item ℝ)),
      ((start camera tunables).run before).1.process frame = (p', items, .ok report) →
        ∀ d, .detection d ∈ items → d.rotationDegrees ∈ Set.Ico 0 180 := by
  refine ⟨fun angle => ?angles, fun rect pointCount => ?rects, ?runs⟩
  case angles =>
    exact ⟨foldAngle_mem angle, foldAngle_sameAxis angle, foldAngle_foldAngle angle,
      fun k => foldAngle_eq_iff.2 ⟨k, rfl⟩⟩
  case rects =>
    intro shape
    have shape_eq : shape = _ := ofRect_eq rect pointCount
    simp only [shape_eq, true_and]
    refine ⟨foldAngle_mem _, foldAngle_sameAxis _, fun oblong => ?_, fun k => ?_⟩
    · rw [ofRect_fromOtherSide oblong, ofRect_eq]
    · rw [ofRect_turnedBy, ofRect_eq]
  case runs =>
    intro camera tunables before frame p' report items used d h
    obtain ⟨points, fitted⟩ := fittedTo_of_process used h
    exact fitted.degrees_mem

omit [Exact] in
/-- An oblong from both of its sides, and the square of four pixels. -/
theorem canonical_oblong :
    letI : Exact := .floored
    let tunables : Tunables ℝ := ⟨1, 2, 3, 0, 1, 1, 0, 0⟩
    let gate : ClassSettings := .usual "gate" 1 .forward "gate.txt"
    let dark : Frame := ⟨.forward, .epoch, .filled 2 2 ⟨0, 0, 0⟩⟩
    let before : List Action := [.add gate fun _ => .object 1, .frame dark]
    let oblong : TiltedRect ℝ := ⟨5, 7, 10, 4, 1⟩
    (oblong.width ≠ oblong.height ∧ ofRect oblong.fromOtherSide 9 = ofRect oblong 9) ∧
    ∃ p' report items d,
      ((start .forward tunables).run before).1.process dark = (p', items, .ok report) ∧
        .detection d ∈ items ∧ d.rotationDegrees ∈ Set.Ico 0 180 := by
  let : Exact := .floored
  intro tunables gate dark before oblong
  obtain ⟨-, rects, published⟩ := shapes_canonical
  have differ : oblong.width ≠ oblong.height := by
    show (10 : ℝ) ≠ 4
    norm_num
  obtain ⟨-, -, -, -, -, -, -, fromOtherSide, -⟩ := rects oblong 9
  obtain ⟨p', report, items, d, used, detected⟩ := exists_published
  exact ⟨⟨differ, fromOtherSide differ⟩, p', report, items, d, used, detected,
    published _ _ _ _ _ _ _ used d detected⟩

end Pipeline

end ObjectTracking
