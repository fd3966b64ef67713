import ObjectTracking.Detection.Basic
import ObjectTracking.Json.Reader

/-! # Reading detection records

A record is a JSON record with the fields of a detection. -/

namespace ObjectTracking

/-- The camera that a value names, as text or as a choice without contents. -/
def Camera.ofJson? (j : Json) : Option Camera :=
  match j with
  | .object [(some name, .null)] => Camera.ofName? name
  | _ => j.toText?.bind Camera.ofName?

namespace Timestamp

/-- The last second a clock can show. -/
def lastSecond : Int := (signedWord 63).2

/-- A moment since 1970 as a record. Nothing else may stand in it, and the clock has to be able to
show it. -/
def ofJson? (j : Json) : Option Timestamp := do
  if let .object members := j then
    if members.length ≠ 2 then none
  match ← j.fields? ["secs_since_epoch", "nanos_since_epoch"] with
  | [seconds, nanos] =>
    let moment := ofParts (← seconds.toWord?) (← nanos.toNat? (UInt32.size - 1))
    if lastSecond < moment.seconds then none else return moment
  | _ => none

end Timestamp

namespace Detection

def fieldNames : List String :=
  ["class_id", "class_name", "camera", "timestamp", "frame", "blob_index", "x", "y", "width",
    "height", "rotation_degrees", "confidence", "points"]

def ofJson? (j : Json) : Option (Detection Float) := do
  match ← j.fields? fieldNames with
  | [classId, className, camera, taken, frame, blobIndex, x, y, width, height, rotation, confidence,
      points] =>
    return {
      classId := ← classId.toByte?
      className := ← className.toText?
      camera := ← Camera.ofJson? camera
      taken := ← Timestamp.ofJson? taken
      frame := ← frame.toWord?
      blobIndex := ← blobIndex.toWord?
      x := ← x.toDouble?
      y := ← y.toDouble?
      width := ← width.toDouble?
      height := ← height.toDouble?
      rotationDegrees := ← rotation.toDouble?
      confidence := ← confidence.toDouble?
      points := ← points.toWord? }
  | _ => none

def ofText? (text : String) : Option (Detection Float) := (Json.ofText? text).bind ofJson?

end Detection

end ObjectTracking
