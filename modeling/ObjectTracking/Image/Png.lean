import ObjectTracking.Image.Color

/-! # Pictures as files

A picture is written as a PNG file: a header, the rows of pixels, and an end, each in a chunk with a
check sum. The rows are stored as they are. -/

namespace ObjectTracking.Png

def wordBytes (word : UInt32) : List UInt8 :=
  [(word >>> 24).toUInt8, (word >>> 16).toUInt8, (word >>> 8).toUInt8, word.toUInt8]

/-! ### Check sums -/

/-- Divides one more bit by the polynomial of the check sum. -/
def checkBit (rest : UInt32) : UInt32 :=
  if rest &&& 1 = 1 then (rest >>> 1) ^^^ 0xEDB88320 else rest >>> 1

def checkByte (rest : UInt32) (byte : UInt8) : UInt32 :=
  (List.range 8).foldl (fun rest _ => checkBit rest) (rest ^^^ byte.toUInt32)

/-- The check sum of a chunk: a cyclic redundancy check over 32 bits. -/
def chunkSum (bytes : ByteArray) : UInt32 := bytes.foldl checkByte 0xFFFFFFFF ^^^ 0xFFFFFFFF

/-- The largest prime below `2 ^ 16`. -/
def sumModulus : UInt32 := 65521

/-- The check sum of the data: the sum of the bytes, and the sum of all sums on the way. -/
def dataSum (bytes : ByteArray) : UInt32 :=
  let sums := bytes.foldl (fun (sum, total) byte =>
    let sum := (sum + byte.toUInt32) % sumModulus
    (sum, (total + sum) % sumModulus)) ((1 : UInt32), (0 : UInt32))
  (sums.2 <<< 16) ||| sums.1

/-! ### Chunks -/

/-- A chunk of a kind named by four letters. -/
def chunk (kind : String) (data : ByteArray) : ByteArray :=
  let body := kind.toUTF8 ++ data
  ⟨(wordBytes data.size.toUInt32).toArray⟩ ++ body ++ ⟨(wordBytes (chunkSum body)).toArray⟩

/-- How many bytes one block of stored data can hold. -/
def blockSize : Nat := 65535

/-- The bytes in blocks of stored data, the last of which is marked. -/
def blocks (bytes : ByteArray) (place : Nat) : ByteArray :=
  let size := min blockSize (bytes.size - place)
  let length := size.toUInt16
  let last := bytes.size ≤ place + blockSize
  let header : List UInt8 := [if last then 1 else 0, length.toUInt8, (length >>> 8).toUInt8,
    (~~~length).toUInt8, ((~~~length) >>> 8).toUInt8]
  let block : ByteArray := ⟨header.toArray⟩ ++ bytes.extract place (place + size)
  if _ : bytes.size ≤ place + blockSize then block
  else block ++ blocks bytes (place + blockSize)
termination_by bytes.size - place
decreasing_by simp only [blockSize] at *; omega

def stored (bytes : ByteArray) : ByteArray :=
  ⟨#[0x78, 0x01]⟩ ++ blocks bytes 0 ++ ⟨(wordBytes (dataSum bytes)).toArray⟩

/-! ### Files -/

/-- The rows of an image, each with a byte in front that says that it is written as it is. -/
def rows {α : Type} (image : Image α) (bytesOf : α → List UInt8) : ByteArray :=
  image.pixels.zipIdx.foldl (fun bytes (pixel, i) =>
    let bytes := if i % image.width = 0 then bytes.push 0 else bytes
    (bytesOf pixel).foldl ByteArray.push bytes) .empty

/-- The file of an image of one or more bytes a pixel. `colorType` says what they mean. -/
def file {α : Type} (image : Image α) (colorType : UInt8) (bytesOf : α → List UInt8) : ByteArray :=
  let size := wordBytes image.width.toUInt32 ++ wordBytes image.height.toUInt32
  ⟨#[0x89, 0x50, 0x4E, 0x47, 0x0D, 0x0A, 0x1A, 0x0A]⟩ ++
    chunk "IHDR" ⟨(size ++ [8, colorType, 0, 0, 0]).toArray⟩ ++
    chunk "IDAT" (stored (rows image bytesOf)) ++
    chunk "IEND" .empty

def ofRgb (image : Image Rgb) : ByteArray :=
  file image 2 fun pixel => [pixel.red, pixel.green, pixel.blue]

def ofGray (image : Image UInt8) : ByteArray := file image 0 fun pixel => [pixel]

end ObjectTracking.Png
