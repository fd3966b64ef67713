import ObjectTracking.Detection.Basic
import ObjectTracking.Output.Broadcast

/-! # The output bus

Detections go out on one stream, pictures on another; any number of receivers may listen to either.
Pictures travel encoded, so one that the format cannot hold is not sent. -/

namespace ObjectTracking

inductive FrameFormat where
  | png
  | jpeg (quality : UInt8)
  deriving DecidableEq, Repr

namespace FrameFormat

/-- The format if nothing else is asked for. -/
def usual : FrameFormat := jpeg 80

/-- The largest side of a picture. -/
def maxSide : FrameFormat → Nat
  | png => 1 <<< 31 - 1
  | jpeg _ => 65535

/-- A picture of that size can be encoded. -/
def canHold (format : FrameFormat) (width height : Nat) : Bool :=
  0 < width && width ≤ format.maxSide && 0 < height && height ≤ format.maxSide

end FrameFormat

inductive FrameKind where
  | annotated
  | mask (className : String)
  deriving DecidableEq, Repr

/-- A picture on its way to the receivers. -/
structure Packet where
  camera : Camera
  frame : Nat
  kind : FrameKind
  width : Nat
  height : Nat
  format : FrameFormat
  deriving DecidableEq, Repr

structure Bus (α : Type) where
  format : FrameFormat
  detections : Broadcast (Detection α)
  frames : Broadcast Packet

namespace Bus
variable {α : Type}

/-- A bus nobody listens to yet. -/
def start (capacity : Nat) (format : FrameFormat) : Bus α :=
  ⟨format, .start capacity, .start capacity⟩

/-- Sends a picture, if it can be encoded. -/
def sendPicture (bus : Bus α) (camera : Camera) (frame : Nat) (kind : FrameKind)
    (width height : Nat) : Bus α :=
  if bus.format.canHold width height then
    { bus with frames := bus.frames.send ⟨camera, frame, kind, width, height, bus.format⟩ }
  else bus

def publish (bus : Bus α) : Item α → Bus α
  | .detection d => { bus with detections := bus.detections.send d }
  | .annotated camera frame image =>
    bus.sendPicture camera frame .annotated image.width image.height
  | .mask camera className frame image =>
    bus.sendPicture camera frame (.mask className) image.width image.height

def close (bus : Bus α) : Bus α :=
  { bus with detections := bus.detections.close, frames := bus.frames.close }

end Bus

end ObjectTracking
