import ObjectTracking.Json.Value

/-! # Reading JSON

A value is read from the front of a text; the reader goes through the text once and keeps a stack of
the arrays and objects it is inside of, so that values may nest to any depth. -/

namespace ObjectTracking.Json

/-- The characters allowed between the parts of a value. -/
def isBlank (c : Char) : Bool := c = ' ' || c = '\n' || c = '\t' || c = '\r'

def skipBlanks (s : List Char) : List Char := s.dropWhile isBlank

/-! ### Numbers -/

def takeDigits (s : List Char) : List Nat × List Char :=
  ((s.takeWhile Char.isDigit).map fun c => c.toNat - '0'.toNat, s.dropWhile Char.isDigit)

/-- The part of a number behind its point. At least one digit must follow the point. -/
def readFraction : List Char → Option (List Nat × List Char)
  | '.' :: rest =>
    let (digits, rest) := takeDigits rest
    if digits.isEmpty then none else some (digits, rest)
  | rest => some ([], rest)

/-- The exponent of a number, which has at least one digit. -/
def readExponent : List Char → Option (Option (Bool × List Nat) × List Char)
  | c :: rest =>
    if c = 'e' || c = 'E' then
      let (negative, rest) := match rest with
        | '-' :: rest => (true, rest)
        | '+' :: rest => (false, rest)
        | rest => (false, rest)
      let (digits, rest) := takeDigits rest
      if digits.isEmpty then none else some (some (negative, digits), rest)
    else some (none, c :: rest)
  | [] => some (none, [])

/-- A number. Its first digit is a zero only if no digit follows. -/
def readNumber (s : List Char) : Option (JsonNumber × List Char) := do
  let (negative, s) := match s with
    | '-' :: rest => (true, rest)
    | rest => (false, rest)
  let (whole, rest) := takeDigits s
  if whole.isEmpty || (whole.head? = some 0 && 1 < whole.length) then none
  let (fraction, rest) ← readFraction rest
  let (exponent, rest) ← readExponent rest
  return (⟨negative, whole, fraction, exponent⟩, rest)

/-! ### Strings -/

def hexDigit? (c : Char) : Option Nat :=
  if c.isDigit then some (c.toNat - '0'.toNat)
  else if 'a' ≤ c ∧ c ≤ 'f' then some (c.toNat - 'a'.toNat + 10)
  else if 'A' ≤ c ∧ c ≤ 'F' then some (c.toNat - 'A'.toNat + 10)
  else none

def ofHex4? (a b c d : Char) : Option Nat :=
  ([a, b, c, d].mapM hexDigit?).map fun digits => digits.foldl (fun n d => n * 16 + d) 0

/-- One unit of a string: a character, or a half of a surrogate pair. -/
inductive Piece where
  | char (c : Char)
  | high (unit : Nat)
  | low (unit : Nat)

/-- The unit with a code. -/
def Piece.ofCode (code : Nat) : Piece :=
  if 0xD800 ≤ code ∧ code < 0xDC00 then high code
  else if 0xDC00 ≤ code ∧ code < 0xE000 then low code
  else char (Char.ofNat code)

/-- What stands behind a backslash, apart from a code. -/
def escaped? : Char → Option Char
  | '"' => some '"'
  | '\\' => some '\\'
  | '/' => some '/'
  | 'b' => some '\x08'
  | 'f' => some '\x0c'
  | 'n' => some '\n'
  | 'r' => some '\r'
  | 't' => some '\t'
  | _ => none

/-- The units of a string up to its closing quote. Control characters have to be escaped. -/
def readPieces (before : List Piece) : List Char → Option (List Piece × List Char)
  | [] => none
  | '"' :: rest => some (before.reverse, rest)
  | '\\' :: 'u' :: a :: b :: c :: d :: rest => do
    let code ← ofHex4? a b c d
    readPieces (.ofCode code :: before) rest
  | '\\' :: c :: rest => do
    let c ← escaped? c
    readPieces (.char c :: before) rest
  | c :: rest => if c.toNat < 0x20 then none else readPieces (.char c :: before) rest

/-- Puts surrogate pairs together. There is no text if a half stands alone. -/
def joinPieces : List Piece → Option (List Char)
  | [] => some []
  | .char c :: rest => (joinPieces rest).map (c :: ·)
  | .high h :: .low l :: rest =>
    (joinPieces rest).map (Char.ofNat (0x10000 + (h - 0xD800) * 0x400 + (l - 0xDC00)) :: ·)
  | _ => none

def readString (s : List Char) : Option (Option String × List Char) := do
  let (pieces, rest) ← readPieces [] s
  return ((joinPieces pieces).map String.ofList, rest)

/-! ### Values -/

/-- An array or object that is not closed yet, with what it holds so far, the latest first. -/
inductive Frame where
  | array (before : List Json)
  | object (before : List (Option String × Json)) (key : Option String)

/-- The key of a member, with its colon. -/
def readKey (s : List Char) : Option (Option String × List Char) :=
  match skipBlanks s with
  | '"' :: rest => do
    let (key, rest) ← readString rest
    match skipBlanks rest with
    | ':' :: rest => return (key, rest)
    | _ => none
  | _ => none

def readScalar (s : List Char) : Option (Json × List Char) :=
  match s with
  | 'n' :: 'u' :: 'l' :: 'l' :: rest => some (null, rest)
  | 't' :: 'r' :: 'u' :: 'e' :: rest => some (bool true, rest)
  | 'f' :: 'a' :: 'l' :: 's' :: 'e' :: rest => some (bool false, rest)
  | '"' :: rest => (readString rest).map fun (text, rest) => (string text, rest)
  | _ => (readNumber s).map fun (n, rest) => (number n, rest)

/-- Reads on inside the open arrays and objects: either a value is due, or one was just read. -/
def readFrom : (fuel : Nat) → List Frame → Option Json → List Char → Option (Json × List Char)
  | 0, _, _, _ => none
  | fuel + 1, frames, none, s =>
    match skipBlanks s with
    | '[' :: rest =>
      match skipBlanks rest with
      | ']' :: rest => readFrom fuel frames (some (array [])) rest
      | rest => readFrom fuel (.array [] :: frames) none rest
    | '{' :: rest =>
      match skipBlanks rest with
      | '}' :: rest => readFrom fuel frames (some (object [])) rest
      | rest => do
        let (key, rest) ← readKey rest
        readFrom fuel (.object [] key :: frames) none rest
    | s => do
      let (value, rest) ← readScalar s
      readFrom fuel frames (some value) rest
  | _ + 1, [], some value, s => some (value, s)
  | fuel + 1, .array before :: frames, some value, s =>
    match skipBlanks s with
    | ',' :: rest => readFrom fuel (.array (value :: before) :: frames) none rest
    | ']' :: rest => readFrom fuel frames (some (array (value :: before).reverse)) rest
    | _ => none
  | fuel + 1, .object before key :: frames, some value, s =>
    match skipBlanks s with
    | ',' :: rest => do
      let (next, rest) ← readKey rest
      readFrom fuel (.object ((key, value) :: before) next :: frames) none rest
    | '}' :: rest => readFrom fuel frames (some (object ((key, value) :: before).reverse)) rest
    | _ => none

/-- The value at the front of a text and what follows it. Every step takes a character at least, but
for the last. -/
def readPrefix (s : List Char) : Option (Json × List Char) := readFrom (s.length + 2) [] none s

def isEnd (s : List Char) : Bool := (skipBlanks s).isEmpty

def ofText? (text : String) : Option Json := do
  let (value, rest) ← readPrefix text.toList
  if isEnd rest then return value else none

end ObjectTracking.Json
