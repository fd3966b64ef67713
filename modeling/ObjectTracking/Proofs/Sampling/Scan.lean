import ObjectTracking.Frame
import ObjectTracking.Proofs.Grid.Lattice
import ObjectTracking.Proofs.Grid.Representation
import ObjectTracking.Proofs.Sampling.Average

/-!
# The samples of a frame

A frame is sampled at the lattice points of its upright picture, each of them once
(`Frame.sampledAt`). So a classifier writes one label for each sample, and the labels of the others
are left alone: a labelled grid can be read like a table (`SampleSet.get_classifyInto`).
-/

namespace ObjectTracking

theorem Image.get?_map {α β : Type} (image : Image α) (f : α → β) (p : Point) :
    (image.map f).get? p = (image.get? p).map f := by
  have same : (image.map f).Contains p ↔ image.Contains p := Iff.rfl
  rw [get?_eq, get?_eq]
  by_cases inside : image.Contains p
  · rw [if_pos (same.2 inside), if_pos inside]
    exact Array.getElem?_map
  · rw [if_neg (same.not.2 inside), if_neg inside]
    rfl

/-! ### What is seen of a frame -/

/-- The pixels of the upright picture on a lattice, with their colors. -/
def Frame.sampledAt (frame : Frame) (phase stride : Nat) : List (Point × Hsv) :=
  (latticePoints phase stride frame.uprightImage.width frame.uprightImage.height).filterMap fun p =>
    (frame.uprightImage.get? p).map fun pixel => (p, pixel.toHsv)

section
variable {frame : Frame} {phase stride : Nat}

theorem Scanner.colors_upright (scanner : Scanner) (frame : Frame) :
    scanner.colors frame.upright.hsv = frame.sampledAt scanner.phase scanner.stride := by
  unfold Scanner.colors Frame.sampledAt
  refine List.filterMap_congr fun p _ => ?_
  simp only [Frame.upright, Image.get?_map, Option.map_map]
  rfl

theorem Frame.color_of_mem_sampledAt {sample : Point × Hsv}
    (h : sample ∈ frame.sampledAt phase stride) :
    ∃ pixel, frame.uprightImage.get? sample.1 = some pixel ∧ sample.2 = pixel.toHsv := by
  obtain ⟨p, -, h⟩ := List.mem_filterMap.1 h
  obtain ⟨pixel, held, rfl⟩ := Option.map_eq_some_iff.1 h
  exact ⟨pixel, held, rfl⟩

theorem Frame.map_sampledAt (frame : Frame) (phase : Nat) (stride_pos : 0 < stride) :
    (frame.sampledAt phase stride).map (·.1) =
      latticePoints phase stride frame.uprightImage.width frame.uprightImage.height := by
  rw [Frame.sampledAt, List.map_filterMap]
  -- no lattice point is left out, as each of them lies in the picture
  refine (List.filterMap_congr fun p hp => ?_).trans (List.filterMap_some ..)
  have inside : frame.uprightImage.Contains p := ((mem_latticePoints stride_pos).1 hp).2
  simp [Image.get?, inside]

end

/-! ### Labelled grids -/

namespace SampleSet
variable {set : SampleSet} {classify : Classifier} {grid : LabelGrid}

def points (set : SampleSet) : List Point := set.samples.map (·.point)

/-- The samples lie in the area, no two of them at one point. -/
structure Spread (set : SampleSet) : Prop where
  inside : ∀ p ∈ set.points, p.x < set.width ∧ p.y < set.height
  distinct : set.points.Nodup

/-- Writes the label of a sample. -/
def write (classify : Classifier) (grid : LabelGrid) (s : Sample) : LabelGrid :=
  grid.set s.point (.sampled (classify s.features))

@[simp] theorem contains_write (s : Sample) (p : Point) :
    (write classify grid s).cells.Contains p ↔ grid.cells.Contains p := by
  rw [Image.Contains, ← LabelGrid.width, ← LabelGrid.height, write, LabelGrid.width_set,
    LabelGrid.height_set]
  rfl

theorem get_writes_of_not_mem {samples : List Sample} {p : Point}
    (h : p ∉ samples.map (·.point)) : (samples.foldl (write classify) grid).get p = grid.get p := by
  induction samples generalizing grid with
  | nil => rfl
  | cons s rest ih =>
    rw [List.map_cons, List.mem_cons, not_or] at h
    obtain ⟨other, later⟩ := h
    exact (ih later).trans (LabelGrid.get_set_ne (Ne.symm other) _)

/-- What is written at a point stays, as no other sample is there. -/
theorem get_writes {samples : List Sample} (inside : ∀ s ∈ samples, grid.cells.Contains s.point)
    (distinct : (samples.map (·.point)).Nodup) {s : Sample} (hs : s ∈ samples) :
    (samples.foldl (write classify) grid).get s.point = .sampled (classify s.features) := by
  induction samples generalizing grid with
  | nil => exact absurd hs List.not_mem_nil
  | cons first rest ih =>
    rw [List.map_cons] at distinct
    obtain ⟨alone, distinct⟩ := List.nodup_cons.1 distinct
    obtain ⟨here, inside⟩ := List.forall_mem_cons.1 inside
    rcases List.mem_cons.1 hs with rfl | hs
    · -- the later samples are written elsewhere
      exact (get_writes_of_not_mem alone).trans (LabelGrid.get_set_self here _)
    · exact ih (fun s hs => (contains_write first s.point).2 (inside s hs)) distinct hs

/-- A labelled grid has at each sample the label that the classifier gives to it. -/
theorem get_classifyInto (spread : set.Spread) (valid : grid.Valid) {s : Sample}
    (hs : s ∈ set.samples) :
    (set.classifyInto classify grid).get s.point = .sampled (classify s.features) := by
  rw [classifyInto, valid.reset_eq_empty]
  refine get_writes (fun s hs => ?_) spread.distinct hs
  exact spread.inside s.point (List.mem_map_of_mem hs)

theorem get_classifyInto_of_not_mem (valid : grid.Valid) {p : Point} (h : p ∉ set.points) :
    (set.classifyInto classify grid).get p = .unsampled := by
  rw [classifyInto, valid.reset_eq_empty]
  exact (get_writes_of_not_mem h).trans (LabelGrid.get_empty ..)

end SampleSet

/-! ### The samples of a scan -/

section
variable (scanner : Scanner) (frame : Frame) (context : ColorStats)

theorem Scanner.stride_pos : 0 < scanner.stride :=
  Nat.lt_of_le_of_lt (Nat.zero_le _) scanner.phase_lt

theorem Scanner.points_scan : (scanner.scan frame.upright.hsv context).points =
    latticePoints scanner.phase scanner.stride frame.uprightImage.width
      frame.uprightImage.height := by
  rw [← frame.map_sampledAt scanner.phase scanner.stride_pos, ← scanner.colors_upright,
    SampleSet.points, Scanner.scan, List.map_map]
  rfl

theorem Scanner.spread_scan : (scanner.scan frame.upright.hsv context).Spread := by
  have ordered : (scanner.scan frame.upright.hsv context).points.Pairwise Point.Precedes := by
    rw [scanner.points_scan]
    exact pairwise_latticePoints scanner.stride_pos ..
  refine ⟨fun p hp => ?_, ordered.imp fun before same => ?_⟩
  · rw [scanner.points_scan] at hp
    exact ((mem_latticePoints scanner.stride_pos).1 hp).2
  · subst same
    unfold Point.Precedes at before
    omega

theorem Scanner.sums_scan : (scanner.scan frame.upright.hsv context).sums =
    ((frame.sampledAt scanner.phase scanner.stride).map (·.2)).foldl .add .zero := by
  rw [← scanner.colors_upright, List.foldl_map]
  rfl

variable {scanner frame context}

theorem Scanner.of_mem_scan {s : Sample}
    (hs : s ∈ (scanner.scan frame.upright.hsv context).samples) :
    ∃ pixel, frame.uprightImage.get? s.point = some pixel ∧
      s.features = .ofColor context pixel.toHsv := by
  obtain ⟨⟨p, color⟩, hcolor, rfl⟩ := List.mem_map.1 hs
  rw [scanner.colors_upright] at hcolor
  obtain ⟨pixel, held, rfl⟩ := Frame.color_of_mem_sampledAt hcolor
  exact ⟨pixel, held, rfl⟩

end

end ObjectTracking
