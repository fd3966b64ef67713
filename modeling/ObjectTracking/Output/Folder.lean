import ObjectTracking.Detection.Record
import ObjectTracking.FileTree

/-! # The output folder

Detections are appended to one file, a line each; every picture becomes a file of its own, named by
camera, frame number and, for masks, class. -/

namespace ObjectTracking

namespace OutputName

def detections : String := "detections.jsonl"

/-- A frame number, filled up with zeros to six digits. -/
def number (frame : Nat) : String :=
  let digits := Nat.toDigits 10 frame
  String.ofList (List.replicate (6 - digits.length) '0' ++ digits)

def annotated (camera : Camera) (frame : Nat) : String :=
  camera.name ++ "_" ++ number frame ++ ".png"

def mask (camera : Camera) (className : String) (frame : Nat) : String :=
  camera.name ++ "_" ++ number frame ++ "_" ++ className ++ "_mask.png"

end OutputName

structure OutputFolder where
  /-- The names of the picture files, the latest first. -/
  pictures : List String
  detections : String

namespace OutputFolder

def empty : OutputFolder := ⟨[], ""⟩

/-- Appends a detection. A record that cannot be completed is left as it is, without a line end. -/
def writeDetection (folder : OutputFolder) (d : Detection Float) : OutputFolder :=
  let (text, complete) := d.write
  { folder with detections := folder.detections ++ text ++ (if complete then "\n" else "") }

/-- Makes a picture file, unless the name does not allow it. A file of that name is replaced. -/
def writePicture (folder : OutputFolder) (name : String) : OutputFolder :=
  if FileName.isPlain name && !folder.pictures.contains name then
    { folder with pictures := name :: folder.pictures }
  else folder

def publish (folder : OutputFolder) : Item Float → OutputFolder
  | .detection d => folder.writeDetection d
  | .annotated camera frame _ => folder.writePicture (OutputName.annotated camera frame)
  | .mask camera className frame _ =>
    folder.writePicture (OutputName.mask camera className frame)

def names (folder : OutputFolder) : List String :=
  (OutputName.detections :: folder.pictures).mergeSort fun a b => a ≤ b

end OutputFolder

end ObjectTracking
