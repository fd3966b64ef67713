import ObjectTracking.DecisionTree.Basic
import ObjectTracking.Frame
import ObjectTracking.Settings.Basic

/-! # Faults

Everything that can stop the program from starting or a frame from being used. What is only turned
down within a frame, such as a sparse blob, is no fault. -/

namespace ObjectTracking

inductive ModelFault where
  | missing
  /-- The file does not hold a list of nodes. -/
  | unreadable
  | invalid (fault : TreeFault)
  deriving DecidableEq, Repr

inductive Fault where
  | settings (cause : SettingsFault)
  | model (className path : String) (cause : ModelFault)
  | malformedFrame (cause : FrameFault)
  | unknownClass (name : String)
  | noWorker (camera : Camera)
  /-- A file cannot be read or written. -/
  | io
  /-- A file is no picture. -/
  | image
  /-- A text is not in the format of settings files. -/
  | toml
  /-- A text is not in the format of records. -/
  | json

namespace Fault

/-- What is told about a fault; only a word for those that the format itself explains. -/
def message : Fault → String
  | settings cause => "Configuration error: " ++ cause.reason
  | model className path cause =>
    let reason := match cause with
      | .missing => "No such file or directory (os error 2)"
      | .unreadable => "not a decision tree"
      | .invalid fault => fault.reason
    "Model error for class '" ++ className ++ "': " ++ path ++ ": " ++ reason
  | malformedFrame cause => "Malformed frame: " ++ cause.reason
  | unknownClass name => "Unknown class: " ++ name
  | noWorker camera => s!"Channel error: no worker for the {camera.name} camera"
  | io => "IO error"
  | image => "Image error"
  | toml => "TOML error"
  | json => "JSON error"

end Fault

end ObjectTracking
