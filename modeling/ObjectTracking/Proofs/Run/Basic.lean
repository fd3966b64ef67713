import Mathlib.Tactic.Common
import ObjectTracking.Pipeline.Basic
import ObjectTracking.Proofs.Steps

/-!
# Runs of a pipeline

A run is any sequence of registrations, switch changes and frames, one after the other. Each of them
is answered, and goes on with the pipeline that the one before it left behind, refused or not. The
stages of a frame are put into closed form here, class by class: what becomes of a class
(`ClassState.next`) and what it has to say (`ClassState.outcome?`) depends on the class, the samples
and the number of the frame alone.
-/

namespace ObjectTracking

inductive Action where
  | add (settings : ClassSettings) (classify : Classifier)
  | update (className : String) (update : ClassUpdate)
  | frame (frame : Frame)

/-- What comes of an action: a result, or why it was refused, and what was handed on. -/
inductive Answer (α : Type) where
  | added (result : Except Fault Unit)
  | updated (result : Except Fault ClassFlags)
  | processed (items : List (Item α)) (result : Except Fault (Report α))

def Answer.items {α : Type} : Answer α → List (Item α)
  | processed items _ => items
  | _ => []

/-- What is reported of a frame, unless the action was another one or the frame was refused. -/
def Answer.report? {α : Type} : Answer α → Option (Report α)
  | processed _ (.ok report) => some report
  | _ => none

/-- A frame that a pipeline of this camera can use. -/
structure Frame.Fits (frame : Frame) (camera : Camera) : Prop where
  width_pos : 0 < frame.image.width
  height_pos : 0 < frame.image.height
  camera_eq : frame.camera = camera

instance (frame : Frame) (camera : Camera) : Decidable (frame.Fits camera) :=
  decidable_of_iff (0 < frame.image.width ∧ 0 < frame.image.height ∧ frame.camera = camera)
    ⟨fun ⟨w, h, c⟩ => ⟨w, h, c⟩, fun ⟨w, h, c⟩ => ⟨w, h, c⟩⟩

namespace ClassState
variable {α : Type} [Scalar α] (c : ClassState α) (samples : SampleSet) (tunables : Tunables α)
  (number : Nat)

def labels : LabelGrid := samples.classifyInto c.classify c.grid

/-- The blobs that are looked at, and the grid that is left. -/
def found : LabelGrid × List Blob :=
  (c.labels samples).findBlobs samples.phase samples.stride (criteria c.settings tunables)

/-- Where the class is once it has gone through the blobs. -/
def progress : Progress α :=
  (c.found samples tunables).2.zipIdx.foldl
    (Progress.take c.settings tunables samples.stride number)
    ⟨c.tracker, ⟨c.settings.id, (c.found samples tunables).2.length, 0, 0, 0⟩, []⟩

theorem run_eq : c.run samples tunables number =
    ({ c with
        grid := (c.found samples tunables).1
        tracker := (c.progress samples tunables number).tracker },
      { settings := c.settings
        summary := (c.progress samples tunables number).summary
        hits := (c.progress samples tunables number).hits
        mask := if c.flags.publishMask then some (c.labels samples).mask else none }) := rfl

/-- What the class says about a frame; nothing while it is disabled. -/
def outcome? : Option (ClassOutcome α) :=
  if c.flags.enabled then some (c.run samples tunables number).2 else none

def next : ClassState α :=
  let ran := if c.flags.enabled then (c.run samples tunables number).1 else c
  { ran with tracker := ran.tracker.prune number }

@[simp] theorem next_settings : (c.next samples tunables number).settings = c.settings := by
  simp only [next]; split <;> rfl

def switched (update : ClassUpdate) : ClassState α := { c with flags := update.apply c.flags }

omit [Scalar α] in
@[simp] theorem switched_settings (update : ClassUpdate) :
    (c.switched update).settings = c.settings := rfl

variable {c samples tunables number} {outcome : ClassOutcome α}

theorem outcome?_eq_some_iff :
    c.outcome? samples tunables number = some outcome ↔
      c.flags.enabled = true ∧ outcome = (c.run samples tunables number).2 := by
  unfold outcome?
  split <;> simp [*, eq_comm]

theorem outcome?_settings (h : c.outcome? samples tunables number = some outcome) :
    outcome.settings = c.settings := by
  obtain ⟨-, rfl⟩ := outcome?_eq_some_iff.1 h
  rfl

end ClassState

namespace Pipeline
variable {α : Type} [Scalar α]

abbrev Use (α : Type) := Pipeline α → Frame → Pipeline α × List (Item α) × Except Fault (Report α)

/-- One action, with frames used as given. -/
def stepWith (use : Use α) (p : Pipeline α) : Action → Pipeline α × Answer α
  | .add settings classify =>
    let (p', result) := p.addClass settings classify
    (p', .added result)
  | .update className update =>
    let (p', result) := p.updateClass className update
    (p', .updated result)
  | .frame frame =>
    let (p', items, result) := use p frame
    (p', .processed items result)

/-- A run, with frames used as given: the state after it, and the answers. -/
def runWith (use : Use α) (p : Pipeline α) : List Action → Pipeline α × List (Answer α)
  | [] => (p, [])
  | a :: rest =>
    let stepped := p.stepWith use a
    let later := stepped.1.runWith use rest
    (later.1, stepped.2 :: later.2)

abbrev step : Pipeline α → Action → Pipeline α × Answer α := stepWith process

/-- A run: the state after it, and the answers. -/
abbrev run : Pipeline α → List Action → Pipeline α × List (Answer α) := runWith process

theorem run_cons (p : Pipeline α) (a : Action) (rest : List Action) :
    p.run (a :: rest) =
      (((p.step a).1.run rest).1, (p.step a).2 :: ((p.step a).1.run rest).2) := rfl

omit [Scalar α] in
theorem runWith_append (use : Use α) (p : Pipeline α) (first rest : List Action) :
    p.runWith use (first ++ rest) =
      (((p.runWith use first).1.runWith use rest).1,
        (p.runWith use first).2 ++ ((p.runWith use first).1.runWith use rest).2) := by
  induction first generalizing p with
  | nil => rfl
  | cons a first ih => simp only [List.cons_append, runWith, ih]

theorem run_append (p : Pipeline α) (first rest : List Action) :
    p.run (first ++ rest) =
      (((p.run first).1.run rest).1, (p.run first).2 ++ ((p.run first).1.run rest).2) :=
  runWith_append process p first rest

/-- What every action keeps holds after a run. -/
theorem run_invariant {P : Pipeline α → Prop} (keeps : ∀ p a, P p → P (p.step a).1)
    {p : Pipeline α} (start : P p) (actions : List Action) : P (p.run actions).1 := by
  induction actions generalizing p with
  | nil => exact start
  | cons a rest ih => exact ih (keeps p a start)

/-- If each use of a frame is as good as processing it, so is the run. -/
theorem runWith_eq_run {P : Pipeline α → Prop} {use : Use α}
    (keeps : ∀ p a, P p → P (p.step a).1) (agrees : ∀ p frame, P p → use p frame = p.process frame)
    {p : Pipeline α} (start : P p) (actions : List Action) : p.runWith use actions = p.run actions := by
  induction actions generalizing p with
  | nil => rfl
  | cons a rest ih =>
    have same : p.stepWith use a = p.step a := by
      cases a with
      | frame frame => simp only [stepWith, agrees p frame start]
      | _ => rfl
    simp only [runWith, same, ih (keeps p a start)]

/-! ### One frame in closed form -/

def samplesOf (p : Pipeline α) (frame : Frame) : SampleSet :=
  p.context.scanner.scan frame.upright.hsv p.context.colors

/-- What the classes say about a frame, in the order of registration. -/
def outcomesOf (p : Pipeline α) (frame : Frame) : List (ClassOutcome α) :=
  p.classes.filterMap (·.outcome? (p.samplesOf frame) p.tunables p.context.frameCount)

/-- The pipeline after a frame that it used. -/
def after (p : Pipeline α) (frame : Frame) : Pipeline α where
  camera := p.camera
  tunables := p.tunables
  classes := p.classes.map (·.next (p.samplesOf frame) p.tunables p.context.frameCount)
  context := p.context.finish (p.samplesOf frame)

/-- What is reported of a frame that was used. -/
def reportOf (p : Pipeline α) (frame : Frame) : Report α where
  camera := p.camera
  frame := p.context.frameCount
  detections := (p.outcomesOf frame).flatMap fun outcome =>
    outcome.hits.map (detectionOf frame.upright p.context.frameCount outcome.settings)
  classes := (p.outcomesOf frame).map (·.summary)

def itemsFor (p : Pipeline α) (frame : Frame) : List (Item α) :=
  (p.outcomesOf frame).flatMap (itemsOf frame.upright p.context.frameCount) ++
    [.annotated p.camera p.context.frameCount
      ((p.outcomesOf frame).foldl markHits frame.upright.rgb)]

theorem runClasses_eq (samples : SampleSet) (tunables : Tunables α) (number : Nat)
    (classes : List (ClassState α)) :
    runClasses samples tunables number classes =
      (classes.map fun c => if c.flags.enabled then (c.run samples tunables number).1 else c,
        classes.filterMap (·.outcome? samples tunables number)) := by
  induction classes with
  | nil => rfl
  | cons c rest ih =>
    simp only [runClasses, ih]
    by_cases h : c.flags.enabled = true <;> simp [ClassState.outcome?, h]

theorem processUpright_eq (p : Pipeline α) (frame : Frame) :
    p.processUpright frame.upright = (p.after frame, p.itemsFor frame, p.reportOf frame) := by
  obtain ⟨camera, tunables, classes, context⟩ := p
  simp only [processUpright, runClasses_eq, List.map_map]
  rfl

theorem process_of_fits {p : Pipeline α} {frame : Frame} (h : frame.Fits p.camera) :
    p.process frame = (p.after frame, p.itemsFor frame, .ok (p.reportOf frame)) := by
  have size : ¬ (frame.image.width = 0 ∨ frame.image.height = 0) := by
    have := h.width_pos; have := h.height_pos; omega
  simp [process, Frame.check, size, h.camera_eq, processUpright_eq]

/-- Any other frame is refused before anything is done with it, and why does not depend on the rest
of the pipeline. -/
theorem process_of_not_fits {camera : Camera} {frame : Frame} (h : ¬ frame.Fits camera) :
    ∃ fault, ∀ p : Pipeline α, p.camera = camera → p.process frame = (p, [], .error fault) := by
  by_cases size : frame.image.width = 0 ∨ frame.image.height = 0
  · exact ⟨_, fun p _ => by simp only [process, Frame.check, if_pos size]; rfl⟩
  · refine ⟨.malformedFrame (.wrongCamera frame.camera camera), ?_⟩
    rintro p rfl
    have other : frame.camera ≠ p.camera := fun same => h ⟨by omega, by omega, same⟩
    simp only [process, Frame.check, if_neg size, if_pos other]

theorem of_process_eq_ok {p p' : Pipeline α} {frame : Frame} {report : Report α}
    {items : List (Item α)} (h : p.process frame = (p', items, .ok report)) :
    frame.Fits p.camera ∧ p' = p.after frame ∧ report = p.reportOf frame ∧
      items = p.itemsFor frame := by
  by_cases fits : frame.Fits p.camera
  · rw [process_of_fits fits] at h
    cases h
    exact ⟨fits, rfl, rfl, rfl⟩
  · obtain ⟨fault, hfault⟩ := process_of_not_fits (α := α) fits
    rw [hfault p rfl] at h
    cases h

end Pipeline

end ObjectTracking
