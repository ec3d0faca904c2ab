/-
Form encoding of key-value pairs, the notation of query strings. Letters, digits and the four marks `_.-~` stand for
themselves, a blank is written as a plus sign, and every other character as its UTF-8 bytes, each a percent sign with
two capital hexadecimal digits. A pair is its key, an equals sign and its value; pairs are separated by ampersands.
-/
import UriRouting.Text.Basic

namespace UriRouting.FormEncoding

/-- the UTF-8 bytes of a code point -/
def utf8 (n : Nat) : List Nat :=
  if n < 0x80 then [n]
  else if n < 0x800 then [0xC0 + n / 0x40, 0x80 + n % 0x40]
  else if n < 0x10000 then [0xE0 + n / 0x1000, 0x80 + n / 0x40 % 0x40, 0x80 + n % 0x40]
  else [0xF0 + n / 0x40000, 0x80 + n / 0x1000 % 0x40, 0x80 + n / 0x40 % 0x40, 0x80 + n % 0x40]

def isUnreserved (c : Char) : Bool := c.isAlphanum || c == '_' || c == '.' || c == '-' || c == '~'

def capitalHexDigit (n : Nat) : Char := "0123456789ABCDEF".toList.getD n '0'

def percent (b : Nat) : Text := ['%', capitalHexDigit (b / 16), capitalHexDigit (b % 16)]

def encodeChar (c : Char) : Text :=
  if isUnreserved c then [c] else if c = ' ' then ['+'] else (utf8 c.toNat).flatMap percent

def encodeText (t : Text) : Text := t.flatMap encodeChar

def encodePair (pair : Text × Text) : Text := encodeText pair.1 ++ '=' :: encodeText pair.2

/-- the pairs encoded, in order -/
def encode (pairs : List (Text × Text)) : Text := Text.joinWith ['&'] (pairs.map encodePair)

end UriRouting.FormEncoding
