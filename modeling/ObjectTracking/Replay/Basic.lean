import ObjectTracking.Caption
import ObjectTracking.Output.Folder
import ObjectTracking.Pipeline.FromSettings
import ObjectTracking.Replay.Options
import ObjectTracking.Settings.Reader
import ObjectTracking.Worker.Dispatcher

/-! # Replays

Recorded frames are sent through the pipelines of their cameras, one worker for each. What comes out
is collected for the output folder. -/

namespace ObjectTracking.Replay

abbrev Files := String → Option ByteArray

/-- What a file holds, if it is text. -/
def Files.text? (files : Files) (path : String) : Option String :=
  (files path).bind String.fromUTF8?

def loadSettings (options : ReplayOptions) (files : Files) : Except Fault Settings :=
  Settings.load options.config (files.text? options.config)

/-- Switches those of the named classes that a pipeline looks for. -/
def switchAll (update : ClassUpdate) (pipeline : Pipeline Float) (names : List String) :
    Except Fault (Pipeline Float) :=
  names.foldlM (fun pipeline name =>
    if pipeline.hasClass name then
      let (pipeline, result) := pipeline.updateClass name update
      result.map fun _ => pipeline
    else .ok pipeline) pipeline

/-- The pipeline of a camera, switched as the options say. -/
def pipelineFor (options : ReplayOptions) (settings : Settings) (files : Files) (camera : Camera) :
    Except Fault (Pipeline Float) := do
  let pipeline ← Pipeline.ofSettings camera settings files.text?
  let pipeline ← switchAll (.enabled false) pipeline options.disabled
  switchAll (.publishMask true) pipeline options.masked

/-- What captions are written with. -/
def captions (settings : Settings) (files : Files) : Except Fault Captions :=
  let font := settings.annotationFont.map settings.resolve
  Captions.load font (font.bind files)

def dispatcher (options : ReplayOptions) (settings : Settings) (files : Files) :
    Except Fault (Dispatcher Float) := do
  let pipelines ← options.sources.mapM fun (camera, _) => pipelineFor options settings files camera
  Dispatcher.spawn Dispatcher.usualPlaces pipelines []

def run (dispatcher : Dispatcher Float) (frames : List Frame) :
    Except Fault (List (Worker Float)) := do
  let dispatcher ← frames.foldlM (fun dispatcher frame =>
    let (dispatcher, result) := dispatcher.submit frame
    result.map fun _ => dispatcher) dispatcher
  return dispatcher.shutdown

/-- The files that settings name: the models and the font. -/
def namedFiles (settings : Settings) : List String :=
  (settings.classes.map (·.model) ++ settings.annotationFont.toList).map settings.resolve

/-- One line about what a worker has done. -/
def summary (worker : Worker Float) : String :=
  let totals := worker.totals
  worker.pipeline.camera.name ++ s!": {totals.processed} processed, {totals.skipped} skipped, " ++
    s!"{totals.detections} detections"

end ObjectTracking.Replay
