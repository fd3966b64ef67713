import ObjectTracking.Detection.Basic
import ObjectTracking.Fault
import ObjectTracking.Pipeline.ClassState

/-! # The pipeline of a camera

Frames go in, confirmed objects and marked pictures come out. A frame is set upright and sampled
once; every enabled class then looks at the samples on its own; what they found is put together in
the order of the classes. A frame is either used completely or refused before anything changes.
Whatever is done with a pipeline leaves a pipeline behind, also when it is refused; the result stands
beside it. -/

namespace ObjectTracking

/-- What a camera carries from one frame to the next, apart from its classes. -/
structure Context where
  /-- The average color of the latest frame with samples. -/
  colors : ColorStats
  /-- Frames processed so far, which is also the number of the next. -/
  frameCount : Nat
  scanner : Scanner

def Context.start (stride : Nat) : Context := ⟨.initial, 0, .ofStride stride⟩

/-- The frame is over: its average color is kept, if it has one, and the lattice moves on. -/
def Context.finish (context : Context) (samples : SampleSet) : Context where
  colors := samples.sums.average?.getD context.colors
  frameCount := context.frameCount + 1
  scanner := context.scanner.advance

/-- All there is to one camera. -/
structure Pipeline (α : Type) where
  camera : Camera
  tunables : Tunables α
  classes : List (ClassState α)
  context : Context

structure ClassInfo where
  name : String
  id : UInt8
  camera : Camera
  flags : ClassFlags
  deriving DecidableEq, Repr

structure Report (α : Type) where
  camera : Camera
  frame : Nat
  detections : List (Detection α)
  classes : List ClassSummary

namespace Pipeline
variable {α : Type} [Scalar α]

def start (camera : Camera) (tunables : Tunables α) : Pipeline α :=
  ⟨camera, tunables, [], .start tunables.stride⟩

/-- Registers a class with its model. It must belong to this camera, and neither its name nor its id
may be taken. -/
def addClass (pipeline : Pipeline α) (settings : ClassSettings) (classify : Classifier) :
    Pipeline α × Except Fault Unit :=
  if settings.camera ≠ pipeline.camera then
    (pipeline, .error (.settings (.wrongCamera settings.name settings.camera pipeline.camera)))
  else if pipeline.classes.any fun c =>
      c.settings.name = settings.name || c.settings.id = settings.id then
    (pipeline, .error (.settings (.alreadyRegistered settings.name settings.id)))
  else
    ({ pipeline with
      classes := pipeline.classes ++ [.start pipeline.tunables settings classify] }, .ok ())

/-! ### Looking at and switching classes -/

def classInfos (pipeline : Pipeline α) : List ClassInfo :=
  pipeline.classes.map fun c => ⟨c.settings.name, c.settings.id, c.settings.camera, c.flags⟩

def class? (pipeline : Pipeline α) (name : String) : Option (ClassState α) :=
  pipeline.classes.find? (·.settings.name = name)

def hasClass (pipeline : Pipeline α) (name : String) : Bool := (pipeline.class? name).isSome

def tracks? (pipeline : Pipeline α) (name : String) : Option (List (Track α)) :=
  (pipeline.class? name).map (·.tracker.tracks)

/-- Changes the first class of that name. -/
def modifyClass (name : String) (change : ClassState α → ClassState α) :
    List (ClassState α) → List (ClassState α)
  | [] => []
  | c :: rest =>
    if c.settings.name = name then change c :: rest else c :: modifyClass name change rest

/-- Changes the switches of a class from the next frame on; the answer is the new switches. -/
def updateClass (pipeline : Pipeline α) (name : String) (update : ClassUpdate) :
    Pipeline α × Except Fault ClassFlags :=
  match pipeline.class? name with
  | none => (pipeline, .error (.unknownClass name))
  | some c =>
    let flags := update.apply c.flags
    ({ pipeline with
      classes := modifyClass name (fun c => { c with flags := flags }) pipeline.classes }, .ok flags)

/-! ### Processing frames -/

/-- A hit as it is handed on: positions count from the middle of the image, upward. -/
def detectionOf (frame : UprightFrame) (number : Nat) (settings : ClassSettings) (hit : Hit α) :
    Detection α where
  classId := settings.id
  className := settings.name
  camera := frame.camera
  taken := frame.taken
  frame := number
  blobIndex := hit.blobIndex
  x := hit.shape.centerX - Scalar.ofNat frame.rgb.width / Scalar.ofNat 2
  y := Scalar.ofNat frame.rgb.height / Scalar.ofNat 2 - hit.shape.centerY
  width := hit.shape.width
  height := hit.shape.height
  rotationDegrees := Shape.rotationDegrees hit.shape.rotation
  confidence := hit.confidence
  points := hit.shape.pointCount

/-- Lets every enabled class look at the samples. -/
def runClasses (samples : SampleSet) (tunables : Tunables α) (number : Nat) :
    List (ClassState α) → List (ClassState α) × List (ClassOutcome α)
  | [] => ([], [])
  | c :: rest =>
    let (states, outcomes) := runClasses samples tunables number rest
    if c.flags.enabled then
      let (c, outcome) := c.run samples tunables number
      (c :: states, outcome :: outcomes)
    else (c :: states, outcomes)

def markHits (image : Image Rgb) (outcome : ClassOutcome α) : Image Rgb :=
  outcome.hits.foldl (fun image hit =>
    Annotation.mark outcome.settings.annotation outcome.settings.color image hit.shape) image

/-- What a class hands on: its mask, if asked for, and its detections. -/
def itemsOf (frame : UprightFrame) (number : Nat) (outcome : ClassOutcome α) : List (Item α) :=
  (outcome.mask.map fun mask => .mask frame.camera outcome.settings.name number mask).toList ++
    outcome.hits.map fun hit => .detection (detectionOf frame number outcome.settings hit)

/-- Uses a frame that was found in order. -/
def processUpright (pipeline : Pipeline α) (frame : UprightFrame) :
    Pipeline α × List (Item α) × Report α :=
  let ⟨camera, tunables, classes, context⟩ := pipeline
  let number := context.frameCount
  let samples := context.scanner.scan frame.hsv context.colors
  let (states, outcomes) := runClasses samples tunables number classes
  let detections := outcomes.flatMap fun outcome =>
    outcome.hits.map (detectionOf frame number outcome.settings)
  let items := outcomes.flatMap (itemsOf frame number) ++
    [.annotated camera number (outcomes.foldl markHits frame.rgb)]
  let states := states.map fun c => { c with tracker := c.tracker.prune number }
  (⟨camera, tunables, states, context.finish samples⟩, items,
    ⟨camera, number, detections, outcomes.map (·.summary)⟩)

/-- Runs a frame through all stages. The answer is the state after it, what was handed on, and the
report, or why there is none. -/
def process (pipeline : Pipeline α) (frame : Frame) :
    Pipeline α × List (Item α) × Except Fault (Report α) :=
  match frame.check with
  | .error fault => (pipeline, [], .error (.malformedFrame fault))
  | .ok () =>
    if frame.camera ≠ pipeline.camera then
      (pipeline, [], .error (.malformedFrame (.wrongCamera frame.camera pipeline.camera)))
    else
      let (pipeline, items, report) := pipeline.processUpright frame.upright
      (pipeline, items, .ok report)

end Pipeline

end ObjectTracking
