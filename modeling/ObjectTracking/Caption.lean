import ObjectTracking.Fault
import ObjectTracking.Font

/-! # Captions

A marked object can carry a caption if there is a font to write it with. What is kept of the font is
that there is one. -/

namespace ObjectTracking

structure Captions where
  hasFont : Bool
  deriving DecidableEq, Repr

namespace Captions

def none : Captions := ⟨false⟩

/-- Loads the font, if one is named by its path; `content` is what the file holds, if there is one.
-/
def load (path : Option String) (content : Option ByteArray) : Except Fault Captions :=
  match path, content with
  | .none, _ => .ok none
  | some _, .none => .error .io
  | some path, some content =>
    if Font.isFont content then .ok ⟨true⟩ else .error (.settings (.badFont path))

def describe (captions : Captions) : String :=
  "Annotator \x7b has_font: " ++ (if captions.hasFont then "true" else "false") ++ " \x7d"

end Captions

end ObjectTracking
