/-
Graphic code points: all that Unicode 14.0 assigns, except controls, surrogates and white space. Other than the
printable ones they include format characters and private use.
-/
import UriRouting.Text.Printable

namespace UriRouting.Codepoint

/-- format characters (general category Cf), ascending -/
def formatRanges : Ranges :=
  [(0xAD, 0xAD), (0x600, 0x605), (0x61C, 0x61C), (0x6DD, 0x6DD), (0x70F, 0x70F), (0x890, 0x891), (0x8E2, 0x8E2),
   (0x180E, 0x180E), (0x200B, 0x200F), (0x202A, 0x202E), (0x2060, 0x2064), (0x2066, 0x206F), (0xFEFF, 0xFEFF),
   (0xFFF9, 0xFFFB), (0x110BD, 0x110BD), (0x110CD, 0x110CD), (0x13430, 0x13438), (0x1BCA0, 0x1BCA3),
   (0x1D173, 0x1D17A), (0xE0001, 0xE0001), (0xE0020, 0xE007F)]

/-- private use (general category Co), ascending -/
def privateUseRanges : Ranges :=
  [(0xE000, 0xF8FF), (0xF0000, 0xFFFFD), (0x100000, 0x10FFFD)]

/-- assigned, and no control, surrogate or white space -/
def isGraphic (n : Nat) : Bool :=
  (n != 0x20 && isPrintable n) || formatRanges.covers n || privateUseRanges.covers n

end UriRouting.Codepoint
