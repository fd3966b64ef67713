import ObjectTracking.Number.Decimal
import ObjectTracking.Toml.Value

/-! # Reading TOML

A settings text is a list of lines: headers, pairs of a key and a value, comments and blank lines.
The readers here take what they read from the front of a text and answer with the rest. -/

namespace ObjectTracking.Toml

/-! ### Lines and blanks -/

/-- A blank within a line. -/
def isBlank (c : Char) : Bool := c = ' ' || c = '\t'

def skipBlanks (s : List Char) : List Char := s.dropWhile isBlank

/-- A character that may stand in comments and, apart from quotes, in strings: a tab or any
character that is no control character. -/
def isText (c : Char) : Bool := c = '\t' || 0x20 ≤ c.toNat && c.toNat ≠ 0x7F

def readBreak : List Char → Option (List Char)
  | '\n' :: rest => some rest
  | '\r' :: '\n' :: rest => some rest
  | _ => none

def skipComment : List Char → List Char
  | '#' :: rest => rest.dropWhile isText
  | s => s

/-- The rest of a line that holds nothing more than a comment. -/
def readLineEnd (s : List Char) : Option (List Char) :=
  match skipComment (skipBlanks s) with
  | [] => some []
  | s => readBreak s

def skipLines : (fuel : Nat) → List Char → List Char
  | 0, s => s
  | fuel + 1, s =>
    let s := skipComment (skipBlanks s)
    match readBreak s with
    | some rest => skipLines fuel rest
    | none => s

/-- Skips blanks, comments and line breaks to the next part of an array. -/
def skipToPart (s : List Char) : List Char := skipLines (s.length + 1) s

/-! ### Strings -/

def hexDigit? (c : Char) : Option Nat :=
  if c.isDigit then some (c.toNat - '0'.toNat)
  else if 'a' ≤ c ∧ c ≤ 'f' then some (c.toNat - 'a'.toNat + 10)
  else if 'A' ≤ c ∧ c ≤ 'F' then some (c.toNat - 'A'.toNat + 10)
  else none

/-- A character given by `count` hexadecimal digits; surrogates are no characters. -/
def readCode (count : Nat) (s : List Char) : Option (Char × List Char) := do
  let digits ← (s.take count).mapM hexDigit?
  if digits.length ≠ count then none
  let code := digits.foldl (fun n d => n * 16 + d) 0
  if code.isValidChar then return (Char.ofNat code, s.drop count) else none

/-- The character that an escape stands for, read behind the backslash. -/
def readEscape : List Char → Option (Char × List Char)
  | 'b' :: rest => some ('\x08', rest)
  | 't' :: rest => some ('\t', rest)
  | 'n' :: rest => some ('\n', rest)
  | 'f' :: rest => some ('\x0c', rest)
  | 'r' :: rest => some ('\r', rest)
  | '"' :: rest => some ('"', rest)
  | '\\' :: rest => some ('\\', rest)
  | 'u' :: rest => readCode 4 rest
  | 'U' :: rest => readCode 8 rest
  | _ => none

/-- A string of one line up to its closing quote, with escapes unless it is literal. -/
def readLine (quote : Char) (literal : Bool) :
    (fuel : Nat) → List Char → List Char → Option (List Char × List Char)
  | 0, _, _ => none
  | fuel + 1, s, before =>
    match s with
    | [] => none
    | c :: rest =>
      if c = quote then some (before.reverse, rest)
      else if c = '\\' && !literal then do
        let (c, rest) ← readEscape rest
        readLine quote literal fuel rest (c :: before)
      else if isText c then readLine quote literal fuel rest (c :: before)
      else none

def skipBreaks : (fuel : Nat) → List Char → List Char
  | 0, s => s
  | fuel + 1, s =>
    let s := skipBlanks s
    match readBreak s with
    | some rest => skipBreaks fuel rest
    | none => s

/-- Behind a backslash, the end of the line: it is taken out with all blanks and breaks after it. -/
def skipFolded (s : List Char) : Option (List Char) :=
  (readBreak (skipBlanks s)).map fun rest => skipBreaks (rest.length + 1) rest

/-- A string of several lines up to its three closing quotes, of which up to two more may stand
before them. -/
def readBlock (quote : Char) (literal : Bool) :
    (fuel : Nat) → List Char → List Char → Option (List Char × List Char)
  | 0, _, _ => none
  | fuel + 1, s, before =>
    match s with
    | [] => none
    | c :: rest =>
      if c = quote then
        let run := (s.takeWhile (· = quote)).length
        if run < 3 then readBlock quote literal fuel rest (c :: before)
        else
          let closing := min run 5
          some ((List.replicate (closing - 3) quote ++ before).reverse, s.drop closing)
      else if c = '\\' && !literal then
        match skipFolded rest with
        | some rest => readBlock quote literal fuel rest before
        | none => do
          let (c, rest) ← readEscape rest
          readBlock quote literal fuel rest (c :: before)
      else if isText c then readBlock quote literal fuel rest (c :: before)
      else do
        let rest ← readBreak s
        readBlock quote literal fuel rest ('\n' :: before)

/-- A string in double or single quotes, of one or several lines. A break right behind three opening
quotes does not belong to the string. -/
def readString (s : List Char) : Option (String × List Char) := do
  let (quote, literal) ← match s with
    | '"' :: _ => some ('"', false)
    | '\'' :: _ => some ('\'', true)
    | _ => none
  let (text, rest) ←
    if s.take 3 = [quote, quote, quote] then
      let body := s.drop 3
      let body := (readBreak body).getD body
      readBlock quote literal (body.length + 1) body []
    else readLine quote literal s.length (s.drop 1) []
  return (String.ofList text, rest)

/-! ### Keys -/

def isBareKeyChar (c : Char) : Bool := c.isAlphanum || c = '_' || c = '-'

/-- A key without dots: bare, or a string of one line. -/
def readSimpleKey (s : List Char) : Option (String × List Char) :=
  match s with
  | '"' :: rest =>
    (readLine '"' false s.length rest []).map fun (key, rest) => (String.ofList key, rest)
  | '\'' :: rest =>
    (readLine '\'' true s.length rest []).map fun (key, rest) => (String.ofList key, rest)
  | _ =>
    let key := s.takeWhile isBareKeyChar
    if key.isEmpty then none else some (String.ofList key, s.dropWhile isBareKeyChar)

/-- The parts of a dotted key from the next part on, in reverse order before `before`. -/
def readKeyParts : (fuel : Nat) → List Char → List String → Option (List String × List Char)
  | 0, _, _ => none
  | fuel + 1, s, before => do
    let (part, rest) ← readSimpleKey (skipBlanks s)
    match skipBlanks rest with
    | '.' :: rest => readKeyParts fuel rest (part :: before)
    | rest => return (part :: before, rest)

/-- Values nest less deep than this, and keys have fewer parts. -/
def depthLimit : Nat := 80

/-- A dotted key, as the parts before the last, and the last. -/
def readKey (s : List Char) : Option (List String × String × List Char) := do
  let (parts, rest) ← readKeyParts s.length s []
  if depthLimit ≤ parts.length then none
  match parts with
  | [] => none
  | last :: path => return (path.reverse, last, rest)

/-! ### Numbers -/

/-- Digits of which `isDigit` approves, with single underscores between them. -/
def readDigits (isDigit : Char → Bool) : (fuel : Nat) → List Char → List Char →
    Option (List Char × List Char)
  | 0, _, _ => none
  | fuel + 1, s, before =>
    match s with
    | '_' :: c :: rest =>
      if !before.isEmpty && isDigit c then readDigits isDigit fuel rest (c :: before) else none
    | ['_'] => none
    | c :: rest =>
      if isDigit c then readDigits isDigit fuel rest (c :: before)
      else if before.isEmpty then none else some (before.reverse, s)
    | [] => if before.isEmpty then none else some (before.reverse, [])

def readDecimalDigits (s : List Char) : Option (List Char × List Char) :=
  readDigits Char.isDigit (s.length + 1) s []

def readSign : List Char → Bool × List Char
  | '-' :: rest => (true, rest)
  | '+' :: rest => (false, rest)
  | s => (false, s)

/-- The whole part of a number. It starts with a zero only if it is one. -/
def readWhole (s : List Char) : Option (List Char × List Char) :=
  match s with
  | '0' :: rest => some (['0'], rest)
  | _ => readDecimalDigits s

def ofDigits (base : Nat) (digits : List Char) : Nat :=
  digits.foldl (fun n c => n * base + (hexDigit? c).getD 0) 0

/-- The integers are signed 64-bit words. -/
def integer? (value : Int) : Option Toml :=
  if (signedWord 63).1 ≤ value ∧ value ≤ (signedWord 63).2 then some (integer value) else none

def readBased (base : Nat) (s : List Char) : Option (Toml × List Char) := do
  let isDigit (c : Char) : Bool := (hexDigit? c).any (· < base)
  let (digits, rest) ← readDigits isDigit (s.length + 1) s []
  return (← integer? (ofDigits base digits), rest)

def readExponent (s : List Char) : Option (Option Int × List Char) :=
  match s with
  | c :: rest =>
    if c = 'e' || c = 'E' then do
      let (negative, rest) := readSign rest
      let (digits, rest) ← readDecimalDigits rest
      let n : Int := ofDigits 10 digits
      return (some (if negative then -n else n), rest)
    else some (none, s)
  | [] => some (none, s)

def readFraction (s : List Char) : Option (Option (List Char) × List Char) :=
  match s with
  | '.' :: rest => (readDecimalDigits rest).map fun (digits, rest) => (some digits, rest)
  | _ => some (none, s)

/-- A decimal integer or float. A float beyond the largest double is refused, but not one below the
smallest. -/
def readDecimal (s : List Char) : Option (Toml × List Char) := do
  let (negative, rest) := readSign s
  let (whole, rest) ← readWhole rest
  let (fraction, rest) ← readFraction rest
  let (exponent, rest) ← readExponent rest
  if fraction.isNone && exponent.isNone then
    let n : Int := ofDigits 10 whole
    return (← integer? (if negative then -n else n), rest)
  else
    let places := fraction.getD []
    let x := Decimal.toDouble
      ⟨negative, ofDigits 10 (whole ++ places), exponent.getD 0 - places.length⟩
    if x.isInf && !negative then none else return (float x, rest)

/-- `inf` or `nan`, with a sign or without. -/
def readSpecial (s : List Char) : Option (Toml × List Char) :=
  let (negative, rest) := readSign s
  match rest with
  | 'i' :: 'n' :: 'f' :: rest => some (float (if negative then -1 / 0 else 1 / 0), rest)
  | 'n' :: 'a' :: 'n' :: rest => some (float (0 / 0), rest)
  | _ => none

def readNumber (s : List Char) : Option (Toml × List Char) :=
  match s with
  | '0' :: 'x' :: rest => readBased 16 rest
  | '0' :: 'o' :: rest => readBased 8 rest
  | '0' :: 'b' :: rest => readBased 2 rest
  | _ => (readSpecial s).or (readDecimal s)

/-! ### Dates and times -/

/-- A number of exactly `count` digits within a range. -/
def readField (count low high : Nat) (s : List Char) : Option (Nat × List Char) :=
  let digits := s.take count
  let value := ofDigits 10 digits
  if digits.length = count && digits.all Char.isDigit && low ≤ value && value ≤ high then
    some (value, s.drop count)
  else none

def readChar (c : Char) : List Char → Option (List Char)
  | d :: rest => if c = d then some rest else none
  | [] => none

def daysIn (year month : Nat) : Nat :=
  if month = 2 then
    if year % 4 = 0 && (year % 100 ≠ 0 || year % 400 = 0) then 29 else 28
  else if month = 4 || month = 6 || month = 9 || month = 11 then 30 else 31

def readDate (s : List Char) : Option (List Char) := do
  let (year, s) ← readField 4 0 9999 s
  let (month, s) ← readField 2 1 12 (← readChar '-' s)
  let (_, s) ← readField 2 1 (daysIn year month) (← readChar '-' s)
  return s

/-- A time of day; a minute may have a leap second. -/
def readTime (s : List Char) : Option (List Char) := do
  let (_, s) ← readField 2 0 23 s
  let (_, s) ← readField 2 0 59 (← readChar ':' s)
  let (_, s) ← readField 2 0 60 (← readChar ':' s)
  match s with
  | '.' :: rest =>
    if (rest.takeWhile Char.isDigit).isEmpty then none else return rest.dropWhile Char.isDigit
  | _ => return s

def readOffset (s : List Char) : Option (List Char) :=
  match s with
  | c :: rest =>
    if c = 'Z' || c = 'z' then some rest
    else if c = '+' || c = '-' then do
      let (_, s) ← readField 2 0 23 rest
      let (_, s) ← readField 2 0 59 (← readChar ':' s)
      return s
    else some s
  | [] => some []

/-- A date, a time, or a date with a time and perhaps an offset. -/
def readDatetime (s : List Char) : Option (List Char) :=
  match readDate s with
  | none => readTime s
  | some rest =>
    match rest with
    | c :: time =>
      if c = 'T' || c = 't' || c = ' ' then
        match readTime time with
        | some rest => readOffset rest
        | none => some rest
      else some rest
    | [] => some []

/-! ### Values -/

def readScalar (s : List Char) : Option (Toml × List Char) :=
  match s with
  | '"' :: _ | '\'' :: _ => (readString s).map fun (text, rest) => (string text, rest)
  | 't' :: 'r' :: 'u' :: 'e' :: rest => some (boolean true, rest)
  | 'f' :: 'a' :: 'l' :: 's' :: 'e' :: rest => some (boolean false, rest)
  | _ => ((readDatetime s).map fun rest => (datetime, rest)).or (readNumber s)

/-- The items of an array behind its bracket or a comma; a comma may follow the last. -/
def readItems (item : List Char → Option (Toml × List Char)) :
    (fuel : Nat) → List Char → List Toml → Option (List Toml × List Char)
  | 0, _, _ => none
  | fuel + 1, s, before =>
    match skipToPart s with
    | ']' :: rest => some (before.reverse, rest)
    | s => do
      let (value, rest) ← item s
      match skipToPart rest with
      | ',' :: rest => readItems item fuel rest (value :: before)
      | ']' :: rest => return ((value :: before).reverse, rest)
      | _ => none

/-- A line `path.key = value` up to the end of the value. -/
def readPair (item : List Char → Option (Toml × List Char)) (s : List Char) :
    Option (Pair × List Char) := do
  let (path, key, rest) ← readKey s
  let rest ← readChar '=' rest
  let (value, rest) ← item (skipBlanks rest)
  return (⟨path, key, value⟩, rest)

/-- The pairs of a table in braces, from the next pair on. No comma follows the last. -/
def readPairs (item : List Char → Option (Toml × List Char)) :
    (fuel : Nat) → List Char → List Pair → Option (List Pair × List Char)
  | 0, _, _ => none
  | fuel + 1, s, before => do
    let (pair, rest) ← readPair item s
    match skipBlanks rest with
    | ',' :: rest => readPairs item fuel rest (pair :: before)
    | '}' :: rest => return ((pair :: before).reverse, rest)
    | _ => none

/-- A value with at most `depth` arrays and tables around any part of it. -/
def readValue : (depth : Nat) → List Char → Option (Toml × List Char)
  | depth, '[' :: rest =>
    match depth with
    | 0 => none
    | depth + 1 => do
      let (items, rest) ← readItems (readValue depth) (rest.length + 1) rest []
      return (array items, rest)
  | depth, '{' :: rest =>
    match depth with
    | 0 => none
    | depth + 1 =>
      match skipBlanks rest with
      | '}' :: rest => some (table .closed [], rest)
      | s => do
        let (pairs, rest) ← readPairs (readValue depth) (s.length + 1) s []
        return (table .closed (← addPairs pairs []), rest)
  | _, s => readScalar s

/-! ### Texts -/

def readHeader (s : List Char) : Option (Header × List Char) :=
  match s with
  | '[' :: '[' :: rest => do
    let (path, key, rest) ← readKey rest
    let rest ← readChar ']' rest
    let rest ← readChar ']' rest
    return (.element path key, ← readLineEnd rest)
  | '[' :: rest => do
    let (path, key, rest) ← readKey rest
    let rest ← readChar ']' rest
    return (.table path key, ← readLineEnd rest)
  | _ => none

/-- Reads on line by line. `sec` is the section the lines belong to, its pairs in reverse order;
`before` are the sections before it, the latest first. -/
def readSections : (fuel : Nat) → List Char → Section → List Section → Option (List Section)
  | 0, _, _, _ => none
  | fuel + 1, s, sec, before =>
    let finished := { sec with pairs := sec.pairs.reverse } :: before
    match skipBlanks s with
    | [] => some finished.reverse
    | '[' :: rest => do
      let (header, rest) ← readHeader ('[' :: rest)
      readSections fuel rest ⟨header, []⟩ finished
    | s =>
      match readLineEnd s with
      | some rest => readSections fuel rest sec before
      | none => do
        let (pair, rest) ← readPair (readValue (depthLimit - 1)) s
        let rest ← readLineEnd rest
        readSections fuel rest { sec with pairs := pair :: sec.pairs } before

/-- The table that a text describes. A byte order mark in front is passed over. -/
def ofText? (text : String) : Option Entries := do
  let s := match text.toList with
    | '\ufeff' :: rest => rest
    | s => s
  ofSections (← readSections (s.length + 1) s ⟨.top, []⟩ [])

end ObjectTracking.Toml
