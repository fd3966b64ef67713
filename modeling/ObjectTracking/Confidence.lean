import ObjectTracking.Shape.Basic

/-! # Confidence

A solid object fills its outline with samples, noise leaves it sparse. The confidence of a shape is
the share of the samples it should have that it does have. -/

namespace ObjectTracking

/-- The outline of which a class is solid; settings name a model by text. -/
inductive ConfidenceModel where
  | rectangle
  | circle
  | unknown (name : String)
  deriving DecidableEq, Repr

namespace ConfidenceModel

def ofName (name : String) : ConfidenceModel :=
  if name = "rectangle" then rectangle else if name = "circle" then circle else unknown name

def name : ConfidenceModel → String
  | rectangle => "rectangle"
  | circle => "circle"
  | unknown name => name

end ConfidenceModel

inductive Confidence (α : Type) where
  /-- The share of the expected samples, at most one. -/
  | score (value : α)
  /-- The shape is too small to expect a single sample. -/
  | degenerate
  | unknownModel
  deriving Repr

namespace Confidence
variable {α : Type} [Scalar α]
open Scalar

def value? : Confidence α → Option α
  | score value => some value
  | _ => none

/-- Only a score strictly above the threshold is accepted. -/
def accepts (confidence : Confidence α) (threshold : α) : Bool :=
  match confidence.value? with
  | some value => lt threshold value
  | none => false

/-- How many samples a solid shape has on a lattice of the given stride, cut to a whole number: its
area, or that of the ellipse within it, over the area of a lattice cell. -/
def expectedPoints? (model : ConfidenceModel) (width height : α) (stride : Nat) : Option Int :=
  let cell : α := square (ofNat (max stride 1))
  match model with
  | .rectangle => some (floorWord (width * height / cell))
  | .circle => some (floorWord (pi * width * height / (ofNat 4 * cell)))
  | .unknown _ => none

/-- The score of some observed samples where `expected` were due. -/
def ofCounts (observed : Nat) (expected : Int) : Confidence α :=
  if expected ≤ 0 then degenerate
  else
    let share : α := ofNat observed / ofNat expected.toNat
    score (if le share (ofNat 1) then share else ofNat 1)

/-- The confidence in a shape sampled with the given stride. -/
def ofShape (model : ConfidenceModel) (shape : Shape α) (stride : Nat) : Confidence α :=
  match expectedPoints? model shape.width shape.height stride with
  | some expected => ofCounts shape.pointCount expected
  | none => unknownModel

end Confidence

end ObjectTracking
