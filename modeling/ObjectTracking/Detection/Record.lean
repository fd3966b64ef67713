import ObjectTracking.Detection.Reader
import ObjectTracking.Number.Decimal

/-! # Writing detection records

A detection is written as one line of JSON, field after field. A moment before 1970 cannot be
written: what stands before it has then been written already, and nothing follows. -/

namespace ObjectTracking

namespace Json

/-- The escape of a character below the blank that has no short form. -/
def codeEscape (n : Nat) : List Char :=
  ['\\', 'u', '0', '0', Nat.digitChar (n / 16), Nat.digitChar (n % 16)]

/-- How a character stands in a string. -/
def escape (c : Char) : List Char :=
  match c with
  | '"' => ['\\', '"']
  | '\\' => ['\\', '\\']
  | '\x08' => ['\\', 'b']
  | '\t' => ['\\', 't']
  | '\n' => ['\\', 'n']
  | '\x0c' => ['\\', 'f']
  | '\r' => ['\\', 'r']
  | c => if c.toNat < 0x20 then codeEscape c.toNat else [c]

def quoted (text : String) : String :=
  String.ofList ('"' :: text.toList.flatMap escape ++ ['"'])

/-- A double by its shortest digits. The point stands among them, or up to five places before or
sixteen behind the first; beyond that there is a power of ten. What is no number is `null`. -/
def doubleText (x : Float) : String :=
  match Binary.ofDouble? x with
  | none => "null"
  | some b =>
    let d := Decimal.shortest .even b
    if d.digits = 0 then d.positional ".0"
    else if -5 < d.pointPlace ∧ d.pointPlace ≤ 16 then d.positional ".0"
    else d.scientific

end Json

/-- A moment as a record, unless it lies before 1970. -/
def Timestamp.record? (t : Timestamp) : Option String :=
  if t.seconds < 0 then none
  else some ("\x7b\"secs_since_epoch\":" ++ toString t.seconds.toNat ++
    ",\"nanos_since_epoch\":" ++ toString t.nanoseconds ++ "\x7d")

namespace Detection

/-- The fields of a record with their texts, in order; a field without a text stops the writing. -/
def fieldTexts (d : Detection Float) : List (String × Option String) :=
  [("class_id", some (toString d.classId.toNat)),
    ("class_name", some (Json.quoted d.className)),
    ("camera", some (Json.quoted d.camera.name)),
    ("timestamp", d.taken.record?),
    ("frame", some (toString d.frame)),
    ("blob_index", some (toString d.blobIndex)),
    ("x", some (Json.doubleText d.x)),
    ("y", some (Json.doubleText d.y)),
    ("width", some (Json.doubleText d.width)),
    ("height", some (Json.doubleText d.height)),
    ("rotation_degrees", some (Json.doubleText d.rotationDegrees)),
    ("confidence", some (Json.doubleText d.confidence)),
    ("points", some (toString d.points))]

/-- Writes fields one after the other until one has no text. -/
def writeFields : List (String × Option String) → (separator : String) → String × Bool
  | [], _ => ("", true)
  | (key, value) :: rest, separator =>
    let start := separator ++ Json.quoted key ++ ":"
    match value with
    | none => (start, false)
    | some value =>
      let (more, complete) := writeFields rest ","
      (start ++ value ++ more, complete)

/-- What is written for a detection, and whether that is the whole record. -/
def write (d : Detection Float) : String × Bool :=
  let (text, complete) := writeFields d.fieldTexts ""
  if complete then ("\x7b" ++ text ++ "\x7d", true) else ("\x7b" ++ text, false)

def record? (d : Detection Float) : Option String :=
  let (text, complete) := d.write
  if complete then some text else none

end Detection

end ObjectTracking
