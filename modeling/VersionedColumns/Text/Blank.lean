import VersionedColumns.Text.CodeRange

/-!
# Blank characters

The 25 code points with the Unicode property `White_Space`, and the text that
is left when they are taken away from both ends.
-/

namespace VersionedColumns.Text

/-- The code points with the property `White_Space`. -/
def blankRanges : List CodeRange :=
  [(0x09, 0x0d), (0x20, 0x20), (0x85, 0x85), (0xa0, 0xa0),
    (0x1680, 0x1680), (0x2000, 0x200a), (0x2028, 0x2029),
    (0x202f, 0x202f), (0x205f, 0x205f), (0x3000, 0x3000)]

/-- Whether a character is white space. -/
def isBlank (character : Char) : Bool :=
  inRanges blankRanges character

example : ascending blankRanges = true := by decide

example : codePoints blankRanges = 25 := by decide

/-- Drop the blank characters at the end. -/
def trimEnd (text : List Char) : List Char :=
  (text.reverse.dropWhile isBlank).reverse

/-- Drop the blank characters at both ends. -/
def trim (text : List Char) : List Char :=
  trimEnd (text.dropWhile isBlank)

end VersionedColumns.Text
