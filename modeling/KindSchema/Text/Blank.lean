import KindSchema.Text.CodePoints

/-!
# Blank characters

The characters with the Unicode property `White_Space`, and trimming by them.
-/

namespace KindSchema

/-- Boundaries of the property `White_Space`. -/
def blankBounds : List Nat := [
  0x9, 0xe, 0x20, 0x21, 0x85, 0x86, 0xa0, 0xa1, 0x1680, 0x1681, 0x2000, 0x200b, 0x2028, 0x202a,
  0x202f, 0x2030, 0x205f, 0x2060, 0x3000, 0x3001]

/-- Whether `c` is white space in the sense of Unicode. -/
def isBlank (c : Char) : Bool :=
  withinBounds blankBounds c.toNat

/-- The text `s` without the blanks at its two ends. -/
def trimBlank (s : String) : String :=
  let rest := s.toList.dropWhile isBlank
  String.ofList (rest.reverse.dropWhile isBlank).reverse

/-- Whether `s` holds nothing but blanks. -/
def isBlankText (s : String) : Bool :=
  s.toList.all isBlank

end KindSchema
