/-
Quoted texts, as error messages show them. A text stands in single quotes, unless it holds a single quote and no
double quote: then it stands in double quotes. Within, the backslash, the quote in use and the unprintable characters
are escaped; an unprintable character is written with the shortest of the three hexadecimal forms that fits it.
-/
import UriRouting.Text.Basic
import UriRouting.Text.Printable

namespace UriRouting

def hexDigit (n : Nat) : Char := "0123456789abcdef".toList.getD n '0'

/-- the lowest `width` hexadecimal digits of n, the highest first -/
def hexDigits : Nat → Nat → Text
  | 0, _ => []
  | width + 1, n => hexDigits width (n / 16) ++ [hexDigit (n % 16)]

namespace Text

def quoteMark (t : Text) : Char := if t.contains '\'' && !t.contains '"' then '"' else '\''

/-- one character inside the given quotes -/
def escapeChar (mark c : Char) : Text :=
  if c = '\\' ∨ c = mark then ['\\', c]
  else if c = '\n' then ['\\', 'n']
  else if c = '\r' then ['\\', 'r']
  else if c = '\t' then ['\\', 't']
  else if isPrintable c.toNat then [c]
  else if c.toNat < 0x100 then '\\' :: 'x' :: hexDigits 2 c.toNat
  else if c.toNat < 0x10000 then '\\' :: 'u' :: hexDigits 4 c.toNat
  else '\\' :: 'U' :: hexDigits 8 c.toNat

def quoted (t : Text) : Text := t.quoteMark :: (t.flatMap (escapeChar t.quoteMark) ++ [t.quoteMark])

end Text

end UriRouting
