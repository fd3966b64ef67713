import ObjectTracking.Proofs.Grid.Components
import ObjectTracking.Proofs.Run.Transition

/-!
# Reused grids are as good as new ones

A class keeps its label grid from frame to frame. Whatever is done to it between two frames leaves
it valid, and a valid grid is labelled as an empty one would be (`classifyInto_eq`), so that a run
with new grids on every frame is the same run (`process_freshGrids`).
-/

namespace ObjectTracking

namespace LabelGrid
variable {grid after : LabelGrid}

theorem Valid.claims {area : Set Point} (h : grid.Valid) (claims : Claims grid area after)
    (sampled : ∀ p ∈ area, grid.get p ≠ .unsampled) : after.Valid where
  inside p hp := by
    have inside := h.inside p (claims.touched_eq ▸ hp)
    exact ⟨inside.1.trans_eq claims.width_eq.symm, inside.2.trans_eq claims.height_eq.symm⟩
  remembered p hp := by
    rw [claims.touched_eq]
    by_cases hin : p ∈ area
    · exact h.remembered p (sampled p hin)
    · exact h.remembered p (claims.kept p hin ▸ hp)

theorem Valid.findBlobs (h : grid.Valid) (phase stride : Nat) (criteria : BlobCriteria) :
    (grid.findBlobs phase stride criteria).1.Valid := by
  have stride_pos : 0 < max stride 1 := Nat.lt_of_lt_of_le Nat.one_pos (Nat.le_max_right ..)
  have scanned := scanned_extract grid criteria.classId phase stride_pos
  refine h.claims scanned.claims ?_
  rintro p ⟨blob, hblob, hp⟩
  obtain ⟨seed, -, held, hc⟩ := scanned.component blob hblob
  have held' : grid.get p = labelled criteria.classId := Linked.held ((hc.mem_area p).1 hp) held
  exact held' ▸ nofun

end LabelGrid

namespace SampleSet
variable (set : SampleSet) (classify : Classifier) {grid : LabelGrid}

theorem classifyInto_eq (h : grid.Valid) :
    set.classifyInto classify grid =
      set.classifyInto classify (.empty set.width set.height) := by
  unfold classifyInto
  rw [h.reset_eq_empty, (LabelGrid.Valid.empty ..).reset_eq_empty]

theorem classifyInto_valid (h : grid.Valid) : (set.classifyInto classify grid).Valid := by
  unfold classifyInto
  rw [h.reset_eq_empty]
  refine List.foldlRecOn set.samples _ (LabelGrid.Valid.empty ..) fun grid hgrid sample _ => ?_
  exact hgrid.set _ _

end SampleSet

namespace ClassState
variable {α : Type} [Scalar α] (c : ClassState α) (samples : SampleSet) (tunables : Tunables α)
  (number : Nat)

/-- The class as it would be with a new grid for a frame of that size; a class that is disabled
does not look at the frame and keeps its grid. -/
def withFreshGrid (width height : Nat) : ClassState α :=
  if c.flags.enabled then { c with grid := .empty width height } else c

omit [Scalar α] in
variable {c samples tunables} in
/-- What is found does not depend on what the grid was used for before. -/
theorem found_eq {c' : ClassState α} (settings_eq : c'.settings = c.settings)
    (classify_eq : c'.classify = c.classify) (valid : c.grid.Valid) (valid' : c'.grid.Valid) :
    c'.found samples tunables = c.found samples tunables := by
  rw [found, found, labels, labels, settings_eq, classify_eq, samples.classifyInto_eq _ valid,
    samples.classifyInto_eq _ valid']

theorem run_grid_valid (h : c.grid.Valid) : (c.run samples tunables number).1.grid.Valid :=
  (samples.classifyInto_valid c.classify h).findBlobs ..

theorem next_grid_valid (h : c.grid.Valid) : (c.next samples tunables number).grid.Valid := by
  simp only [next]
  split
  · exact c.run_grid_valid samples tunables number h
  · exact h

theorem run_fresh (h : c.grid.Valid) :
    ({ c with grid := .empty samples.width samples.height } : ClassState α).run
      samples tunables number = c.run samples tunables number := by
  simp only [run, samples.classifyInto_eq c.classify h]

theorem next_withFreshGrid (h : c.grid.Valid) :
    (c.withFreshGrid samples.width samples.height).next samples tunables number =
      c.next samples tunables number := by
  unfold withFreshGrid
  split
  · simp only [next, c.run_fresh samples tunables number h]
    simp [*]
  · rfl

theorem outcome?_withFreshGrid (h : c.grid.Valid) :
    (c.withFreshGrid samples.width samples.height).outcome? samples tunables number =
      c.outcome? samples tunables number := by
  unfold withFreshGrid
  split
  · simp only [outcome?, c.run_fresh samples tunables number h]
  · rfl

end ClassState

namespace Pipeline
variable {α : Type} [Scalar α]

/-- The pipeline with a new grid for every class that is about to look at the frame. No class looks at
a frame that is refused. -/
def freshGrids (p : Pipeline α) (frame : Frame) : Pipeline α :=
  if frame.Fits p.camera then
    { p with
      classes := p.classes.map
        (·.withFreshGrid frame.uprightImage.width frame.uprightImage.height) }
  else p

def GridsValid (p : Pipeline α) : Prop := ∀ c ∈ p.classes, c.grid.Valid

omit [Scalar α] in
theorem GridsValid.start (camera : Camera) (tunables : Tunables α) :
    (start camera tunables).GridsValid :=
  fun _ hc => absurd hc List.not_mem_nil

theorem GridsValid.step {p : Pipeline α} (h : p.GridsValid) (a : Action) : (p.step a).1.GridsValid :=
  forall_classes_step (fun _ _ => .empty 0 0) (fun _ _ h => h)
    (fun _ _ _ h => ClassState.next_grid_valid _ _ _ _ h) h a

theorem GridsValid.run {p : Pipeline α} (h : p.GridsValid) (actions : List Action) :
    (p.run actions).1.GridsValid :=
  run_invariant (P := GridsValid) (fun _ a h => GridsValid.step h a) h actions

theorem process_freshGrids {p : Pipeline α} (h : p.GridsValid) (frame : Frame) :
    (p.freshGrids frame).process frame = p.process frame := by
  rw [freshGrids]
  split
  next fits =>
    let fresh : Pipeline α := { p with
      classes := p.classes.map
        (·.withFreshGrid frame.uprightImage.width frame.uprightImage.height) }
    show fresh.process frame = p.process frame
    have outcomes : fresh.outcomesOf frame = p.outcomesOf frame := by
      simp only [fresh, outcomesOf, List.filterMap_map]
      exact List.filterMap_congr fun c hc => c.outcome?_withFreshGrid (p.samplesOf frame) _ _ (h c hc)
    have classes : (fresh.after frame).classes = (p.after frame).classes := by
      simp only [fresh, after, List.map_map]
      exact List.map_congr_left fun c hc => c.next_withFreshGrid (p.samplesOf frame) _ _ (h c hc)
    have state : fresh.after frame = p.after frame :=
      congrArg (Pipeline.mk p.camera p.tunables · (p.after frame).context) classes
    have fits' : frame.Fits fresh.camera := fits
    rw [process_of_fits fits, process_of_fits fits', state]
    simp only [reportOf, itemsFor, outcomes]
    rfl
  next => rfl

/-- Giving every class a new grid before it looks at a frame changes nothing: the answers, with all
that is reported and handed on, are the same in every run, and so is the state after it. -/
theorem runWith_freshGrids (camera : Camera) (tunables : Tunables α) (actions : List Action) :
    (start camera tunables).runWith (fun p frame => (p.freshGrids frame).process frame) actions =
      (start camera tunables).run actions :=
  runWith_eq_run (fun _ a h => GridsValid.step h a) (fun _ frame h => process_freshGrids h frame)
    (GridsValid.start camera tunables) actions

end Pipeline

end ObjectTracking
