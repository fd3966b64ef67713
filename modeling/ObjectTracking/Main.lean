import ObjectTracking.Image.Pixmap
import ObjectTracking.Image.Png
import ObjectTracking.Replay.Basic

/-! # The command line

Replays recorded frames: reads the settings, the models and a file of pixmaps for each camera, and
writes the marked pictures and the detections. -/

namespace ObjectTracking.Replay

/-- What a file holds, if it can be read. -/
def readFile? (path : String) : IO (Option ByteArray) := do
  try return some (← IO.FS.readBinFile path) catch _ => return none

def readFiles (paths : List String) : IO Files := do
  let contents ← paths.mapM fun path => do return (path, ← readFile? path)
  return fun path => (contents.lookup path).join

/-- The frames of a camera. They carry no moment of their own. -/
def readFrames (camera : Camera) (path : String) : IO (Except Fault (List Frame)) := do
  try
    match Pixmap.readAll? (← IO.FS.readBinFile path) 0 with
    | some images => return .ok (images.map fun image => ⟨camera, .epoch, image⟩)
    | none => return .error .image
  catch _ => return .error (.settings (.missingDirectory camera path))

def writePicture (folder name : String) (bytes : ByteArray) : IO Unit := do
  if FileName.isPlain name then
    IO.FS.writeBinFile (Settings.joinPath folder name) bytes

def writeItems (folder : String) (items : List (Item Float)) : IO Unit := do
  for item in items do
    match item with
    | .annotated camera frame image =>
      writePicture folder (OutputName.annotated camera frame) (Png.ofRgb image)
    | .mask camera className frame image =>
      writePicture folder (OutputName.mask camera className frame) (Png.ofGray image)
    | .detection _ => pure ()
  let written := items.foldl OutputFolder.publish .empty
  IO.FS.writeFile (Settings.joinPath folder OutputName.detections) written.detections

/-- What a step gives, or the words for its fault. -/
def orMessage {β : Type} (step : Except Fault β) : ExceptT String IO β :=
  ExceptT.mk (pure (step.mapError Fault.message))

/-- Carries out a replay, or ends with the words for what stops it. -/
def replay (options : ReplayOptions) : ExceptT String IO Unit := do
  let settings ← orMessage (loadSettings options (← readFiles [options.config]))
  let files ← readFiles (namedFiles settings)
  discard <| orMessage (captions settings files)
  IO.FS.createDirAll options.output
  let frames ← options.sources.mapM fun (camera, path) => do
    orMessage (← readFrames camera path)
  if frames.isEmpty then
    throw OptionsFault.noFrames.message
  let workers ← orMessage (do run (← dispatcher options settings files) frames.flatten)
  writeItems options.output (workers.flatMap (·.items))
  for worker in workers do
    IO.println (summary worker)

end ObjectTracking.Replay

def main (arguments : List String) : IO UInt32 := do
  match ObjectTracking.ReplayOptions.ofArguments arguments with
  | .error fault =>
    IO.eprintln ("error: " ++ fault.message)
    return 2
  | .ok options =>
    match ← (ObjectTracking.Replay.replay options).run with
    | .ok () => return 0
    | .error message =>
      IO.eprintln ("Error: " ++ message)
      return 1
