/-
Identifiers, by the tables of Unicode 14.0. One starts with a letter, a letter number or the low line and goes on with
these, marks, decimal digits and connectors. Letters that decompose into something that is no identifier are left out; a
few signs count for historical reasons.
-/
import UriRouting.Codepoint.Word

namespace UriRouting.Codepoint

/-- letter numbers (general category Nl), ascending -/
def letterNumberRanges : Ranges :=
  [(0x16EE, 0x16F0), (0x2160, 0x2182), (0x2185, 0x2188), (0x3007, 0x3007), (0x3021, 0x3029), (0x3038, 0x303A),
   (0xA6E6, 0xA6EF), (0x10140, 0x10174), (0x10341, 0x10341), (0x1034A, 0x1034A), (0x103D1, 0x103D5),
   (0x12400, 0x1246E)]

/-- letters that no identifier starts with, ascending -/
def unstartingLetterRanges : Ranges :=
  [(0x37A, 0x37A), (0xE33, 0xE33), (0xEB3, 0xEB3), (0x2E2F, 0x2E2F), (0xFC5E, 0xFC63), (0xFDFA, 0xFDFB),
   (0xFE70, 0xFE70), (0xFE72, 0xFE72), (0xFE74, 0xFE74), (0xFE76, 0xFE76), (0xFE78, 0xFE78), (0xFE7A, 0xFE7A),
   (0xFE7C, 0xFE7C), (0xFE7E, 0xFE7E), (0xFF9E, 0xFF9F)]

/-- enclosing marks (general category Me), ascending -/
def enclosingMarkRanges : Ranges :=
  [(0x488, 0x489), (0x1ABE, 0x1ABE), (0x20DD, 0x20E0), (0x20E2, 0x20E4), (0xA670, 0xA672)]

/-- signs that identifiers start with although they are no letters, ascending -/
def startingSignRanges : Ranges :=
  [(0x1885, 0x1886), (0x2118, 0x2118), (0x212E, 0x212E)]

/-- what identifiers go on with beside letters, marks, digits and connectors, ascending -/
def continuingSignRanges : Ranges :=
  [(0xB7, 0xB7), (0x387, 0x387), (0xE33, 0xE33), (0xEB3, 0xEB3), (0x1369, 0x1371), (0x19DA, 0x19DA),
   (0xFF9E, 0xFF9F)]

def startsIdentifier (n : Nat) : Bool :=
  n == 0x5F || ((isLetter n || letterNumberRanges.covers n) && !unstartingLetterRanges.covers n)
    || startingSignRanges.covers n

def continuesIdentifier (n : Nat) : Bool :=
  startsIdentifier n || (markRanges.covers n && !enclosingMarkRanges.covers n) || isDecimalDigit n
    || connectorRanges.covers n || continuingSignRanges.covers n

def isIdentifier : List Nat → Bool
  | [] => false
  | n :: rest => startsIdentifier n && rest.all continuesIdentifier

end UriRouting.Codepoint
