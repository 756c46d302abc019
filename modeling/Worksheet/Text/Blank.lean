-- SUMMARY: Spaces and blank characters, and the trimming of text.
import Worksheet.Text.Ranges

/-!
# Spaces and Blanks

Spaces are the characters with the Unicode property White_Space. Blank are, in
addition, the four information separators U+001C to U+001F. Blanks may stand
around a reference, a decimal numeral or a flag; around an integer only spaces
may.
-/

namespace Worksheet.Text

/-- The characters that are spaces. -/
def spaceRanges : List Range :=
  [(0x09, 0x0D), (0x20, 0x20), (0x85, 0x85), (0xA0, 0xA0), (0x1680, 0x1680), (0x2000, 0x200A),
    (0x2028, 0x2029), (0x202F, 0x202F), (0x205F, 0x205F), (0x3000, 0x3000)]

def isSpace (c : Char) : Bool := inRanges spaceRanges c.toNat

/-- Whether a character is a space or an information separator. -/
def isBlank (c : Char) : Bool := isSpace c || (0x1C ≤ c.toNat && c.toNat ≤ 0x1F)

/-- Drop the characters of a class on both sides. -/
def strip (p : Char → Bool) (s : List Char) : List Char :=
  ((s.dropWhile p).reverse.dropWhile p).reverse

/-- Drop the blanks on both sides. -/
def trim (s : List Char) : List Char := strip isBlank s

/-- Drop the spaces on both sides. -/
def trimSpaces (s : List Char) : List Char := strip isSpace s

@[simp] theorem strip_nil (p : Char → Bool) : strip p [] = [] := rfl

end Worksheet.Text
