import ObjectTracking.Frame

/-! # Detections

A confirmed sighting of an object, as it is handed on. -/

namespace ObjectTracking

/-- A confirmed object on a frame. -/
structure Detection (α : Type) where
  classId : UInt8
  className : String
  camera : Camera
  taken : Timestamp
  frame : Nat
  /-- The rank of the blob within its class on this frame, largest first. -/
  blobIndex : Nat
  /-- How far the center lies right of the middle of the image. -/
  x : α
  /-- How far the center lies above the middle of the image. -/
  y : α
  width : α
  height : α
  /-- The long axis against the vertical of the image, in `[0, 180)`. -/
  rotationDegrees : α
  confidence : α
  points : Nat
  deriving Repr

/-- What a pipeline hands on, in the order in which it does. -/
inductive Item (α : Type) where
  /-- The labels of a class, for classes that ask for it. -/
  | mask (camera : Camera) (className : String) (frame : Nat) (image : Image UInt8)
  | detection (detection : Detection α)
  /-- The picture with the objects marked, once for each frame. -/
  | annotated (camera : Camera) (frame : Nat) (image : Image Rgb)

end ObjectTracking
