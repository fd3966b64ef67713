/-! # Cameras

The vehicle carries two cameras. One of them is mounted sideways. -/

namespace ObjectTracking

inductive Camera where
  | forward
  | downward
  deriving DecidableEq, Repr, Inhabited

namespace Camera

def all : List Camera := [forward, downward]

/-- The name a camera goes by in settings and output. -/
def name : Camera → String
  | forward => "forward"
  | downward => "downward"

def ofName? (text : String) : Option Camera := all.find? fun c => c.name == text

/-- Pictures of this camera arrive the right way up. -/
def arrivesUpright : Camera → Bool
  | forward => true
  | downward => false

end Camera

end ObjectTracking
