import Treewalk.Text.Ranges

/-! # White space

The characters of the Unicode property White_Space, as ranges of code points, and the removal of
white space from both ends of a text. -/

namespace Treewalk.Text

/-- The twenty-five white-space characters, as closed ranges, ascending and apart. -/
def blankRanges : List (Nat × Nat) :=
  [(0x09, 0x0D), (0x20, 0x20), (0x85, 0x85), (0xA0, 0xA0), (0x1680, 0x1680), (0x2000, 0x200A),
    (0x2028, 0x2029), (0x202F, 0x202F), (0x205F, 0x205F), (0x3000, 0x3000)]

/-- Is this a white-space character? -/
def isBlank (c : Char) : Bool := inRanges blankRanges c.toNat

/-- Removes the characters of a class from the end of a text. -/
def dropEnd (p : Char → Bool) (text : List Char) : List Char := (text.reverse.dropWhile p).reverse

/-- Removes white space from both ends of a text. -/
def trim (text : List Char) : List Char := dropEnd isBlank (text.dropWhile isBlank)

end Treewalk.Text
