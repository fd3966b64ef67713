import ObjectTracking.Fault

/-! # Recordings

A folder of pictures stands in for a camera: its picture files, in the order of their names, are the
frames. -/

namespace ObjectTracking

/-- What stands in a folder under a name. -/
inductive EntryContent where
  | folder
  /-- A file that holds no picture, whatever its name says. -/
  | junk
  | picture (image : Image Rgb)

/-- What a file holds in which a picture was saved. There is no file of a picture without pixels;
what is written of it is no picture. -/
def EntryContent.saved (image : Image Rgb) : EntryContent :=
  if image.width = 0 ∨ image.height = 0 then .junk else .picture image

structure Entry where
  name : String
  modified : Timestamp
  content : EntryContent

namespace Entry

/-- What follows the last dot of a name; a dot in front does not count. -/
def extension? (name : String) : Option String :=
  let reversed := name.toList.reverse
  let suffix := reversed.takeWhile (· ≠ '.')
  match reversed.drop suffix.length with
  | '.' :: _ :: _ => some (String.ofList suffix.reverse)
  | _ => none

/-- The extensions of picture files, in small letters. -/
def pictureExtensions : List String := ["png", "jpg", "jpeg", "bmp"]

/-- An ASCII letter as a small letter, any other character as it is. -/
def toLowerAscii (text : String) : String := String.ofList (text.toList.map Char.toLower)

/-- The name is that of a picture file, in small or capital letters. -/
def hasPictureName (name : String) : Bool :=
  match extension? name with
  | some extension => pictureExtensions.contains (toLowerAscii extension)
  | none => false

def isFile (entry : Entry) : Bool :=
  match entry.content with
  | .folder => false
  | _ => true

def isFrame (entry : Entry) : Bool := entry.isFile && hasPictureName entry.name

end Entry

structure Recording where
  camera : Camera
  files : List Entry

namespace Recording

/-- The recording in a folder at `path`, given what stands in it, if there is such a folder. -/
def ofFolder (camera : Camera) (path : String) (listing : Option (List Entry)) :
    Except Fault Recording :=
  match listing with
  | none => .error (.settings (.missingDirectory camera path))
  | some entries =>
    .ok ⟨camera, (entries.filter Entry.isFrame).mergeSort fun a b => a.name ≤ b.name⟩

def size (recording : Recording) : Nat := recording.files.length

/-- The frame in a file, taken when the file was last changed. -/
def frameOf (recording : Recording) (entry : Entry) : Except Fault Frame :=
  match entry.content with
  | .picture image => .ok ⟨recording.camera, entry.modified, image⟩
  | _ => .error .image

def load (recording : Recording) (index : Nat) : Except Fault Frame :=
  match recording.files[index]? with
  | some entry => recording.frameOf entry
  | none => .error (.malformedFrame (.noSuchFrame recording.camera index))

/-- All frames in order; a file that holds none has a fault in its place. -/
def frames (recording : Recording) : List (Except Fault Frame) :=
  recording.files.map recording.frameOf

end Recording

end ObjectTracking
