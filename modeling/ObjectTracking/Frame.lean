import ObjectTracking.Camera
import ObjectTracking.Image.Color

/-! # Frames

A frame is one picture of one camera with the moment it was taken. Before anything looks at it, it
is checked to have a size and set upright, and its hue, saturation and value are computed. -/

namespace ObjectTracking

def Timestamp.nanosPerSecond : Nat := 1000000000

/-- A moment: whole seconds since 1970, negative before, and nanoseconds after that second. -/
structure Timestamp where
  seconds : Int
  nanoseconds : Nat
  nanoseconds_lt : nanoseconds < Timestamp.nanosPerSecond
  deriving DecidableEq, Repr

namespace Timestamp

/-- The moment some nanoseconds after a second. Those that make up whole seconds are carried over.
-/
def ofParts (seconds : Int) (nanoseconds : Nat) : Timestamp :=
  ⟨seconds + (nanoseconds / nanosPerSecond : Nat), nanoseconds % nanosPerSecond,
    Nat.mod_lt _ (by decide)⟩

def epoch : Timestamp := ofParts 0 0

instance : Inhabited Timestamp := ⟨epoch⟩

end Timestamp

structure Frame where
  camera : Camera
  taken : Timestamp
  image : Image Rgb

/-- Why a frame is refused. -/
inductive FrameFault where
  | zeroSize (camera : Camera) (width height : Nat)
  | wrongCamera (delivered expected : Camera)
  | noSuchFrame (camera : Camera) (index : Nat)
  deriving DecidableEq, Repr

namespace FrameFault

def reason : FrameFault → String
  | zeroSize camera width height => s!"{camera.name} frame has zero size ({width}x{height})"
  | wrongCamera delivered expected =>
    s!"{delivered.name} frame delivered to the {expected.name} pipeline"
  | noSuchFrame camera index => s!"no frame {index} for {camera.name} camera"

end FrameFault

/-- A frame the right way up, in both color spaces. -/
structure UprightFrame where
  camera : Camera
  taken : Timestamp
  rgb : Image Rgb
  hsv : Image Hsv

namespace Frame

/-- A frame without pixels cannot be worked on. -/
def check (frame : Frame) : Except FrameFault Unit :=
  if frame.image.width = 0 ∨ frame.image.height = 0 then
    .error (.zeroSize frame.camera frame.image.width frame.image.height)
  else .ok ()

def uprightImage (frame : Frame) : Image Rgb :=
  if frame.camera.arrivesUpright then frame.image else frame.image.turned

/-- Sets a frame upright and derives its second color space. -/
def upright (frame : Frame) : UprightFrame :=
  let rgb := frame.uprightImage
  ⟨frame.camera, frame.taken, rgb, rgb.map Rgb.toHsv⟩

end Frame

end ObjectTracking
