/-
Blanks: the characters that trimming removes. Beside the White_Space characters these are the four information
separators U+001C to U+001F.
-/
import UriRouting.Text.Basic
import UriRouting.Codepoint.Ranges

namespace UriRouting

/-- runs of the code points with the White_Space property, ascending -/
def whiteSpaceRanges : Codepoint.Ranges :=
  [(0x9, 0xD), (0x20, 0x20), (0x85, 0x85), (0xA0, 0xA0), (0x1680, 0x1680), (0x2000, 0x200A), (0x2028, 0x2029),
   (0x202F, 0x202F), (0x205F, 0x205F), (0x3000, 0x3000)]

def isWhiteSpace (n : Nat) : Bool := whiteSpaceRanges.covers n

/-- white space or an information separator -/
def isBlank (c : Char) : Bool := isWhiteSpace c.toNat || (0x1C ≤ c.toNat && c.toNat ≤ 0x1F)

namespace Text

/-- the text without the blanks at its two ends -/
def trim (t : Text) : Text := ((t.dropWhile isBlank).reverse.dropWhile isBlank).reverse

end Text

end UriRouting
