import ObjectTracking.Annotation
import ObjectTracking.Camera
import ObjectTracking.Confidence
import ObjectTracking.Number.Decimal
import ObjectTracking.Text.Blank
import ObjectTracking.Tracker

/-! # Settings

What there is to find and how sure one has to be of it: a table of object classes and a handful of
numbers that hold for all of them. Settings are checked as a whole before anything runs. -/

namespace ObjectTracking

/-- The numbers shared by all classes. -/
structure Tunables (α : Type) where
  /-- The stride of the sampling lattice, in pixels. -/
  stride : Nat
  confirmationStreak : Nat
  stalenessWindow : Nat
  distanceTolerance : α
  minBlobPoints : Nat
  minBlobPointsElongated : Nat
  minConfidence : α
  minConfidenceElongated : α
  deriving Repr

namespace Tunables
variable {α : Type}

/-- The usual values. The distance tolerance depends on the vehicle and has none. -/
def usual [Scalar α] (distanceTolerance : α) : Tunables α where
  stride := 4
  confirmationStreak := 3
  stalenessWindow := 3
  distanceTolerance := distanceTolerance
  minBlobPoints := 200
  minBlobPointsElongated := 400
  minConfidence := Scalar.decimal 5 1
  minConfidenceElongated := Scalar.decimal 7 1

def minPointsFor (tunables : Tunables α) (elongated : Bool) : Nat :=
  if elongated then tunables.minBlobPointsElongated else tunables.minBlobPoints

/-- The confidence that blobs of a class have to exceed. -/
def minConfidenceFor (tunables : Tunables α) (elongated : Bool) : α :=
  if elongated then tunables.minConfidenceElongated else tunables.minConfidence

def trackingRules (tunables : Tunables α) : TrackingRules α :=
  ⟨tunables.confirmationStreak, tunables.stalenessWindow, tunables.distanceTolerance⟩

end Tunables

structure ClassSettings where
  name : String
  /-- The label that the model gives to pixels of this class; zero means no object. -/
  id : UInt8
  camera : Camera
  shapeModel : ShapeModel
  confidenceModel : ConfidenceModel
  maxBlobs : Nat
  annotation : AnnotationStyle
  color : Rgb
  /-- Elongated objects have limits of their own for size and confidence. -/
  elongated : Bool
  enabled : Bool
  publishMask : Bool
  /-- The file of the model, relative to the settings file. -/
  model : String
  deriving DecidableEq, Repr

/-- A class for which nothing but the necessary is given. -/
def ClassSettings.usual (name : String) (id : UInt8) (camera : Camera) (model : String) :
    ClassSettings where
  name := name
  id := id
  camera := camera
  shapeModel := .rectangle
  confidenceModel := .rectangle
  maxBlobs := 1
  annotation := .rotation
  color := ⟨255, 255, 0⟩
  elongated := false
  enabled := true
  publishMask := false
  model := model

structure Settings where
  tunables : Tunables Float
  classes : List ClassSettings
  /-- The font of captions, relative to the settings file. -/
  annotationFont : Option String
  /-- The directory that relative paths start from. -/
  baseDir : String

/-! ### Checking -/

/-- Why settings, or a set-up made from them, are refused. -/
inductive SettingsFault where
  | zeroStride
  | zeroStreak
  | badTolerance (value : Float)
  | badConfidenceLimit (field : String) (value : Float)
  | blankClassName
  | reservedId (className : String)
  | unknownShapeModel (className model : String)
  | unknownConfidenceModel (className model : String)
  | zeroMaxBlobs (className : String)
  | duplicateName (className : String)
  | duplicateId (id : UInt8) (className : String)
  /-- The class is meant for another camera than the one it is added to. -/
  | wrongCamera (className : String) (belongs given : Camera)
  | alreadyRegistered (className : String) (id : UInt8)
  | secondPipeline (camera : Camera)
  | missingDirectory (camera : Camera) (path : String)
  | badFont (path : String)

namespace SettingsFault

def reason : SettingsFault → String
  | zeroStride => "stride must be at least 1"
  | zeroStreak => "confirmation_streak must be at least 1"
  | badTolerance value =>
    "distance_tolerance must be a non-negative number, got " ++ plainText value
  | badConfidenceLimit field value => field ++ " must lie in [0, 1], got " ++ plainText value
  | blankClassName => "class name must not be empty"
  | reservedId name => "class '" ++ name ++ "': id 0 is reserved for \"no object\""
  | unknownShapeModel name model =>
    "class '" ++ name ++ "': unknown shape model '" ++ model ++ "'"
  | unknownConfidenceModel name model =>
    "class '" ++ name ++ "': unknown confidence model '" ++ model ++ "'"
  | zeroMaxBlobs name => "class '" ++ name ++ "': max_blobs must be at least 1"
  | duplicateName name => "duplicate class name '" ++ name ++ "'"
  | duplicateId id name => s!"duplicate class id {id.toNat} ('" ++ name ++ "')"
  | wrongCamera name belongs given =>
    "class '" ++ name ++ s!"' belongs to the {belongs.name} camera, not {given.name}"
  | alreadyRegistered name id =>
    "class '" ++ name ++ s!"' (id {id.toNat}) is already registered"
  | secondPipeline camera => s!"more than one pipeline for the {camera.name} camera"
  | missingDirectory camera path =>
    s!"{camera.name} frame directory " ++ path ++ " does not exist"
  | badFont path => "font " ++ path ++ ": InvalidFont"

end SettingsFault

def checkConfidenceLimit (field : String) (value : Float) : Except SettingsFault Unit :=
  if 0 ≤ value ∧ value ≤ 1 then .ok () else .error (.badConfidenceLimit field value)

/-- The numbers make sense, each for itself. -/
def Tunables.check (tunables : Tunables Float) : Except SettingsFault Unit := do
  if tunables.stride = 0 then throw .zeroStride
  if tunables.confirmationStreak = 0 then throw .zeroStreak
  if !tunables.distanceTolerance.isFinite || tunables.distanceTolerance < 0 then
    throw (.badTolerance tunables.distanceTolerance)
  checkConfidenceLimit "min_confidence" tunables.minConfidence
  checkConfidenceLimit "min_confidence_elongated" tunables.minConfidenceElongated

def ClassSettings.check (c : ClassSettings) : Except SettingsFault Unit := do
  if isBlank c.name then throw .blankClassName
  if c.id = 0 then throw (.reservedId c.name)
  if let .unknown model := c.shapeModel then throw (.unknownShapeModel c.name model)
  if let .unknown model := c.confidenceModel then throw (.unknownConfidenceModel c.name model)
  if c.maxBlobs = 0 then throw (.zeroMaxBlobs c.name)

/-- Each class makes sense, and none repeats a name or an id given before. -/
def checkClasses (names : List String) (ids : List UInt8) :
    List ClassSettings → Except SettingsFault Unit
  | [] => .ok ()
  | c :: rest => do
    c.check
    if c.name ∈ names then throw (.duplicateName c.name)
    if c.id ∈ ids then throw (.duplicateId c.id c.name)
    checkClasses (c.name :: names) (c.id :: ids) rest

namespace Settings

def check (settings : Settings) : Except SettingsFault Unit := do
  settings.tunables.check
  checkClasses [] [] settings.classes

def joinPath (dir path : String) : String :=
  if path.startsWith "/" || dir.isEmpty then path
  else if dir.endsWith "/" then dir ++ path else dir ++ "/" ++ path

/-- A path of the settings file, seen from where the program runs. -/
def resolve (settings : Settings) (path : String) : String := joinPath settings.baseDir path

def classesFor (settings : Settings) (camera : Camera) : List ClassSettings :=
  settings.classes.filter (·.camera = camera)

end Settings

end ObjectTracking
