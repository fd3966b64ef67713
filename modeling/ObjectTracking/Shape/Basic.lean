import ObjectTracking.Blob.Basic
import ObjectTracking.Shape.Rectangle

/-! # Shapes

A blob is summed up by the smallest rectangle around it, in one normal form: the height is the long
side, and the rotation is the direction of the long axis, folded into the half circle
`[-pi/2, pi/2)` because an axis has no head. -/

namespace ObjectTracking

/-- How the outline of a class is fitted; settings name a model by text. -/
inductive ShapeModel where
  | rectangle
  | unknown (name : String)
  deriving DecidableEq, Repr

namespace ShapeModel

def ofName (name : String) : ShapeModel := if name = "rectangle" then rectangle else unknown name

def name : ShapeModel → String
  | rectangle => "rectangle"
  | unknown name => name

end ShapeModel

structure Shape (α : Type) where
  centerX : α
  centerY : α
  /-- The short side. -/
  width : α
  /-- The long side. -/
  height : α
  /-- The direction of the long side, in `[-pi/2, pi/2)`. -/
  rotation : α
  pointCount : Nat
  deriving Repr

namespace Shape
variable {α : Type} [Scalar α]
open Scalar

/-- The direction of an axis, folded into `[-pi/2, pi/2)`. The remainder may round up to a whole
half turn, which is then taken off once more. -/
def foldAngle (angle : α) : α :=
  let folded := remainder (angle + halfPi) pi - halfPi
  if le halfPi folded then folded - pi else folded

/-- The normal form of a rectangle. Where the height is not the shorter side, the long axis lies a
quarter turn back from the rectangle's own direction. -/
def ofRect (rect : TiltedRect α) (pointCount : Nat) : Shape α :=
  if lt rect.height rect.width then
    ⟨rect.centerX, rect.centerY, rect.height, rect.width, foldAngle rect.angle, pointCount⟩
  else
    ⟨rect.centerX, rect.centerY, rect.width, rect.height, foldAngle (rect.angle - halfPi),
      pointCount⟩

/-- The shape of a blob; a model that is not known fits nothing. -/
def ofBlob? (model : ShapeModel) (blob : Blob) : Option (Shape α) :=
  match model with
  | .rectangle => some (ofRect (.around blob.points.toList) blob.size)
  | .unknown _ => none

/-- The rotation as published: degrees from the vertical axis of the image, in `[0, 180)`. -/
def rotationDegrees (rotation : α) : α := (rotation + halfPi) * (ofNat 180 / pi)

end Shape

end ObjectTracking
