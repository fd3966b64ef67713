import ObjectTracking.Blob.Find
import ObjectTracking.Settings.Basic

/-! # One class on one camera

The stages that concern a single class, from labels to confirmed objects: label the samples, gather
them into blobs, fit and score each blob, and let the tracker decide. Nothing but the state of the
class itself is touched. -/

namespace ObjectTracking

structure ClassFlags where
  enabled : Bool
  publishMask : Bool
  deriving DecidableEq, Repr, Inhabited

namespace ClassFlags

/-- Bit 0 enables the class, bit 1 publishes its mask, the others mean nothing. -/
def ofBits (bits : UInt32) : ClassFlags := ⟨bits &&& 1 != 0, bits &&& 2 != 0⟩

def bits (flags : ClassFlags) : UInt32 :=
  (if flags.enabled then 1 else 0) ||| (if flags.publishMask then 2 else 0)

end ClassFlags

inductive ClassUpdate where
  | enabled (on : Bool)
  | publishMask (on : Bool)
  | flags (new : ClassFlags)
  deriving DecidableEq, Repr

def ClassUpdate.apply (update : ClassUpdate) (flags : ClassFlags) : ClassFlags :=
  match update with
  | enabled on => { flags with enabled := on }
  | publishMask on => { flags with publishMask := on }
  | .flags new => new

/-- A class as it is being looked for. -/
structure ClassState (α : Type) where
  settings : ClassSettings
  classify : Classifier
  grid : LabelGrid
  tracker : Tracker α
  flags : ClassFlags

/-- What became of the blobs of a class on a frame. -/
structure ClassSummary where
  classId : UInt8
  blobs : Nat
  /-- Blobs that could not be fitted or scored, or whose score was too low. -/
  rejected : Nat
  /-- Accepted blobs whose track is not confirmed yet. -/
  provisional : Nat
  confirmed : Nat
  deriving DecidableEq, Repr

structure Hit (α : Type) where
  blobIndex : Nat
  shape : Shape α
  confidence : α

/-- Everything one class has to say about a frame. -/
structure ClassOutcome (α : Type) where
  settings : ClassSettings
  summary : ClassSummary
  hits : List (Hit α)
  mask : Option (Image UInt8)

namespace ClassState
variable {α : Type} [Scalar α]

def start (tunables : Tunables α) (settings : ClassSettings) (classify : Classifier) :
    ClassState α where
  settings := settings
  classify := classify
  grid := .empty 0 0
  tracker := .start settings.id tunables.trackingRules
  flags := ⟨settings.enabled, settings.publishMask⟩

/-- The shape and score of a blob, if it is accepted. -/
def accepted? (settings : ClassSettings) (tunables : Tunables α) (stride : Nat) (blob : Blob) :
    Option (Shape α × α) := do
  let shape ← Shape.ofBlob? settings.shapeModel blob
  let confidence := Confidence.ofShape settings.confidenceModel shape stride
  if confidence.accepts (tunables.minConfidenceFor settings.elongated) then
    return (shape, ← confidence.value?)
  else none

/-- The tracker, the counts and the hits so far, while the blobs of a frame are gone through. -/
structure Progress (α : Type) where
  tracker : Tracker α
  summary : ClassSummary
  hits : List (Hit α)

/-- Takes the next blob: one that is not accepted is counted as rejected, any other is a sighting
for the tracker. -/
def Progress.take (settings : ClassSettings) (tunables : Tunables α) (stride frame : Nat)
    (progress : Progress α) : Blob × Nat → Progress α
  | (blob, index) =>
    let summary := progress.summary
    match accepted? settings tunables stride blob with
    | none => { progress with summary := { summary with rejected := summary.rejected + 1 } }
    | some (shape, confidence) =>
      match progress.tracker.observe shape.centerX shape.centerY frame with
      | (tracker, .confirmed) =>
        ⟨tracker, { summary with confirmed := summary.confirmed + 1 },
          progress.hits ++ [⟨index, shape, confidence⟩]⟩
      | (tracker, .provisional) =>
        ⟨tracker, { summary with provisional := summary.provisional + 1 }, progress.hits⟩

def criteria (settings : ClassSettings) (tunables : Tunables α) : BlobCriteria :=
  ⟨settings.id, tunables.minPointsFor settings.elongated, settings.maxBlobs⟩

/-- All stages of one class for one frame. -/
def run (state : ClassState α) (samples : SampleSet) (tunables : Tunables α) (frame : Nat) :
    ClassState α × ClassOutcome α :=
  let ⟨settings, classify, grid, tracker, flags⟩ := state
  let labels := samples.classifyInto classify grid
  let mask := if flags.publishMask then some labels.mask else none
  let (grid, blobs) := labels.findBlobs samples.phase samples.stride (criteria settings tunables)
  let progress := blobs.zipIdx.foldl (Progress.take settings tunables samples.stride frame)
    ⟨tracker, ⟨settings.id, blobs.length, 0, 0, 0⟩, []⟩
  (⟨settings, classify, grid, progress.tracker, flags⟩,
    ⟨settings, progress.summary, progress.hits, mask⟩)

end ClassState

end ObjectTracking
