import ObjectTracking.DecisionTree.Reader
import ObjectTracking.Pipeline.Basic

/-! # Pipelines from settings

The pipeline of a camera looks for the classes that the settings name for it. A class whose model
cannot be loaded is left out; the others still run. -/

namespace ObjectTracking.Pipeline

/-- Adds a class if its model loads. `content` is what the file at a path holds. -/
def addLoaded (settings : Settings) (content : String → Option String)
    (pipeline : Pipeline Float) (c : ClassSettings) : Except Fault (Pipeline Float) :=
  let path := settings.resolve c.model
  match DecisionTree.load c.name path (content path) with
  | .ok tree =>
    let (pipeline, result) := pipeline.addClass c tree.classify
    result.map fun () => pipeline
  | .error _ => .ok pipeline

def ofSettings (camera : Camera) (settings : Settings) (content : String → Option String) :
    Except Fault (Pipeline Float) :=
  (settings.classesFor camera).foldlM (addLoaded settings content)
    (start camera settings.tunables)

end ObjectTracking.Pipeline
