/-!
# Blank characters

The characters with the property White_Space, and texts made of nothing else.
-/

namespace Retrace.Text

/-- The ranges of White_Space. -/
def blankRanges : List (Nat × Nat) :=
  [(0x9, 0xD), (0x20, 0x20), (0x85, 0x85), (0xA0, 0xA0), (0x1680, 0x1680), (0x2000, 0x200A), (0x2028, 0x2029),
    (0x202F, 0x202F), (0x205F, 0x205F), (0x3000, 0x3000)]

/-- A character of White_Space. -/
def isBlankChar (c : Char) : Bool := blankRanges.any fun (lo, hi) => lo ≤ c.toNat && c.toNat ≤ hi

/-- Nothing is left of the text when blanks are trimmed off. -/
def isBlank (s : String) : Bool := s.toList.all isBlankChar

end Retrace.Text
