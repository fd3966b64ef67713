import ObjectTracking.Fault
import ObjectTracking.Toml.Reader

/-! # Reading settings

A settings text is TOML: a table `tunables`, a list `classes`, and the font of captions. Keys that
mean nothing here are passed over; a value of the wrong kind refuses the whole text. -/

namespace ObjectTracking

/-- What a field holds, or its usual value where it is not given. -/
def fieldOr {α β : Type} (read : α → Option β) (usual : β) : Option α → Option β
  | none => some usual
  | some value => read value

/-- The value as a number; an integer will do. -/
def Toml.toDouble? : Toml → Option Float
  | float x => some x
  | integer n => some (if n < 0 then -Double.ofNat n.natAbs else Double.ofNat n.natAbs)
  | _ => none

/-- The value as a color: three bytes, after which nothing is looked at. -/
def Toml.toColor? (value : Toml) : Option Rgb := do
  let channels ← ((← value.toList?).take 3).mapM (Toml.toNat? 255)
  match channels with
  | [red, green, blue] => some ⟨UInt8.ofNat red, UInt8.ofNat green, UInt8.ofNat blue⟩
  | _ => none

namespace Tunables

def fieldNames : List String :=
  ["stride", "confirmation_streak", "staleness_window", "distance_tolerance", "min_blob_points",
    "min_blob_points_elongated", "min_confidence", "min_confidence_elongated"]

/-- The numbers that a table gives. Only the distance tolerance has to be there. -/
def ofToml? (value : Toml) : Option (Tunables Float) := do
  let word := Toml.toNat? (UInt32.size - 1)
  let long := Toml.toNat? (UInt64.size - 1)
  match ← value.fields? fieldNames with
  | [stride, streak, window, tolerance, points, pointsElongated, confidence,
      confidenceElongated] =>
    let usual := Tunables.usual (← (← tolerance).toDouble?)
    return {
      stride := ← fieldOr word usual.stride stride
      confirmationStreak := ← fieldOr word usual.confirmationStreak streak
      stalenessWindow := ← fieldOr long usual.stalenessWindow window
      distanceTolerance := usual.distanceTolerance
      minBlobPoints := ← fieldOr long usual.minBlobPoints points
      minBlobPointsElongated := ← fieldOr long usual.minBlobPointsElongated pointsElongated
      minConfidence := ← fieldOr Toml.toDouble? usual.minConfidence confidence
      minConfidenceElongated :=
        ← fieldOr Toml.toDouble? usual.minConfidenceElongated confidenceElongated }
  | _ => none

end Tunables

namespace ClassSettings

def fieldNames : List String :=
  ["name", "id", "camera", "shape_model", "confidence_model", "max_blobs", "annotation", "color",
    "elongated", "enabled", "publish_threshold", "model"]

def ofToml? (value : Toml) : Option ClassSettings := do
  match ← value.fields? fieldNames with
  | [name, id, camera, shapeModel, confidenceModel, maxBlobs, annotation, color, elongated, enabled,
      publishMask, model] =>
    let usual := usual (← (← name).toText?) (UInt8.ofNat (← (← id).toNat? 255))
      (← Camera.ofName? (← (← camera).toName?)) (← (← model).toText?)
    return { usual with
      shapeModel := ← fieldOr (·.toText?.map ShapeModel.ofName) usual.shapeModel shapeModel
      confidenceModel :=
        ← fieldOr (·.toText?.map ConfidenceModel.ofName) usual.confidenceModel confidenceModel
      maxBlobs := ← fieldOr (Toml.toNat? (UInt64.size - 1)) usual.maxBlobs maxBlobs
      annotation :=
        ← fieldOr (·.toName?.bind AnnotationStyle.ofName?) usual.annotation annotation
      color := ← fieldOr Toml.toColor? usual.color color
      elongated := ← fieldOr Toml.toBool? usual.elongated elongated
      enabled := ← fieldOr Toml.toBool? usual.enabled enabled
      publishMask := ← fieldOr Toml.toBool? usual.publishMask publishMask }
  | _ => none

end ClassSettings

namespace Settings

/-- The settings that a text describes, whether they make sense or not; paths start from `baseDir`.
-/
def ofEntries? (baseDir : String) (entries : Toml.Entries) : Option Settings := do
  let tunables ← Tunables.ofToml? (← entries.get? "tunables")
  let classes ← fieldOr (fun value => do (← value.toList?).mapM ClassSettings.ofToml?) []
    (entries.get? "classes")
  let font ← fieldOr (fun value => value.toText?.map some) none (entries.get? "annotation_font")
  return ⟨tunables, classes, font, baseDir⟩

/-- Reads and checks a settings text whose paths start from `baseDir`. -/
def ofText (baseDir text : String) : Except Fault Settings :=
  match (Toml.ofText? text).bind (ofEntries? baseDir) with
  | none => .error .toml
  | some settings => (settings.check.mapError .settings).map fun _ => settings

/-- The directory a file lies in: its path up to the last slash, or nothing if it has none. -/
def parentDir (path : String) : String :=
  match path.toList.reverse.dropWhile (· ≠ '/') with
  | ['/'] => "/"
  | before => String.ofList (before.drop 1).reverse

/-- Reads and checks a settings file, given what it holds, if there is one. -/
def load (path : String) (content : Option String) : Except Fault Settings :=
  match content with
  | none => .error .io
  | some text => ofText (parentDir path) text

end Settings

end ObjectTracking
