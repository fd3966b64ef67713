/-! # Font files

A font file is a directory of tables, each with a tag of four letters and a place in the file.
Numbers are written with the highest byte first. A file is a font if it has the three tables that
say how large its glyphs are, how its lines are set, and how many glyphs there are. -/

namespace ObjectTracking.Font

/-- The bytes from `place` on, as many as `size`, if there are so many. -/
def slice? (bytes : ByteArray) (place size : Nat) : Option ByteArray :=
  if place + size ≤ bytes.size then some (bytes.extract place (place + size)) else none

/-- The number that some bytes write, the highest first. -/
def number (bytes : ByteArray) : Nat := bytes.data.foldl (fun n byte => 256 * n + byte.toNat) 0

def number? (bytes : ByteArray) (place size : Nat) : Option Nat :=
  (slice? bytes place size).map number

/-- The number whose bytes are the letters of a tag. -/
def tag (letters : String) : Nat := number letters.toUTF8

/-! ### The directory -/

/-- What a directory of tables can begin with, according to the kind of outlines. -/
def outlineMarks : List Nat := [0x00010000, tag "true", tag "OTTO"]

/-- What a file begins with that holds several fonts. -/
def collectionMark : Nat := tag "ttcf"

/-- The place of the directory: that of the file, or of the first font in a collection. There it
has to lie behind the list of fonts. -/
def directoryPlace? (bytes : ByteArray) : Option Nat := do
  if (← number? bytes 0 4) = collectionMark then
    let count ← number? bytes 8 4
    let listEnd := 12 + 4 * count
    let place ← number? bytes 12 4
    if count = 0 || bytes.size < listEnd || place < listEnd then none else some place
  else some 0

/-- A table as the directory lists it. -/
structure TableRecord where
  tag : Nat
  place : Nat
  size : Nat

def recordSize : Nat := 16

/-- The record at a place of the directory. The check sum in it is not looked at. -/
def TableRecord.read? (bytes : ByteArray) (place : Nat) : Option TableRecord := do
  return ⟨← number? bytes place 4, ← number? bytes (place + 8) 4, ← number? bytes (place + 12) 4⟩

def tables? (bytes : ByteArray) : Option (List TableRecord) := do
  let place ← directoryPlace? bytes
  if !outlineMarks.contains (← number? bytes place 4) then none
  let count ← number? bytes (place + 4) 2
  (List.range count).mapM fun i => TableRecord.read? bytes (place + 12 + recordSize * i)

/-- The last table of that tag; nothing if there is none or it leaves the file. -/
def table? (bytes : ByteArray) (tables : List TableRecord) (letters : String) : Option ByteArray :=
  (tables.reverse.find? (·.tag = tag letters)).bind fun record =>
    slice? bytes record.place record.size

/-! ### The tables a font cannot do without -/

/-- The header is complete, divides the height of a line into a possible number of units, and says
in one of two ways where glyphs are found. -/
def isHeader (table : ByteArray) : Bool :=
  54 ≤ table.size && (number? table 18 2).any (fun units => 16 ≤ units && units ≤ 16384) &&
    (number? table 50 2).any (· ≤ 1)

def isLineTable (table : ByteArray) : Bool := 36 ≤ table.size

/-- The versions of the table about the number of glyphs. -/
def countVersions : List Nat := [0x00005000, 0x00010000]

def isGlyphCount (table : ByteArray) : Bool :=
  (number? table 0 4).any countVersions.contains && (number? table 4 2).any (0 < ·)

def isFont (bytes : ByteArray) : Bool :=
  (tables? bytes).any fun tables =>
    (table? bytes tables "head").any isHeader && (table? bytes tables "hhea").any isLineTable &&
      (table? bytes tables "maxp").any isGlyphCount

end ObjectTracking.Font
