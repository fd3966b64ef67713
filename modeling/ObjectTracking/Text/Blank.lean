/-! # Blank text

The characters with the Unicode property White_Space, and texts made of nothing else. -/

namespace ObjectTracking

/-- The inclusive ranges of the code points that are white space. -/
def blankRanges : List (Nat × Nat) :=
  [(0x9, 0xD), (0x20, 0x20), (0x85, 0x85), (0xA0, 0xA0), (0x1680, 0x1680), (0x2000, 0x200A),
    (0x2028, 0x2029), (0x202F, 0x202F), (0x205F, 0x205F), (0x3000, 0x3000)]

def isBlankChar (c : Char) : Bool :=
  blankRanges.any fun (first, last) => first ≤ c.toNat && c.toNat ≤ last

/-- The text has no character that is not white space. -/
def isBlank (text : String) : Bool := text.toList.all isBlankChar

end ObjectTracking
