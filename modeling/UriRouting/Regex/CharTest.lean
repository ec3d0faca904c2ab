/-
Tests on single characters, the leaves of a regular expression: a literal, any character, a class, or a set of
literals, ranges and classes. A caseless test accepts a character when it would accept one of its case variants, and a
negated set negates after that. Classes that ask for a letter case are not met by variants: alone, a caseless one asks
for a letter that has case.

A whole expression may know ASCII only. Its classes hold no other code point, and only ASCII letters have case variants
in it; but what asks for letters that have case asks the same as elsewhere.
-/
import UriRouting.Codepoint.Word
import UriRouting.Codepoint.Case
import UriRouting.Codepoint.CaseFold
import UriRouting.Codepoint.Punctuation
import UriRouting.Codepoint.Symbol
import UriRouting.Codepoint.Graphic
import UriRouting.Text.Blank

namespace UriRouting.Regex

/-- the case variants of a code point as far as case is ignored -/
def variants (asciiOnly caseless : Bool) (n : Nat) : List Nat :=
  if caseless then if asciiOnly then Codepoint.asciiCaseVariants n else Codepoint.caseVariants n else [n]

/-- is the one code point the other, or a case variant of it where case is ignored? -/
def isVariant (asciiOnly caseless : Bool) (n m : Nat) : Bool := n == m || (variants asciiOnly caseless n).contains m

inductive Property where
  | letter
  | capital
  | small
  | title
  | casedLetter
  | cased
  | mark
  | decimalDigit
  | connector
  | punctuation
  | alphabetic
  | uppercase
  | lowercase
  | whiteSpace
  | horizontalSpace
  | control
  | graphic
  | printable
  | word
  | asciiDigit
  | alphabeticOrAsciiDigit
  | hexDigit
  /-- punctuation and symbols, as far as they are not alphabetic -/
  | sign
  | ascii
  | any
deriving DecidableEq, Hashable, Repr

namespace Property

/-- a blank within a line -/
def isHorizontalSpace (n : Nat) : Bool :=
  n == 0x9 || (isWhiteSpace n && !(0xA ≤ n && n ≤ 0xD) && n != 0x85 && n != 0x2028 && n != 0x2029)

/-- general category Cc -/
def isControl (n : Nat) : Bool := n < 0x20 || (0x7F ≤ n && n < 0xA0)

def holds : Property → Nat → Bool
  | letter, n => Codepoint.isLetter n
  | capital, n => Codepoint.isCapital n
  | small, n => Codepoint.isSmall n
  | title, n => Codepoint.titleRuns.covers n
  | casedLetter, n => Codepoint.isCasedLetter n
  | cased, n => Codepoint.isCased n
  | mark, n => Codepoint.markRanges.covers n
  | decimalDigit, n => Codepoint.isDecimalDigit n
  | connector, n => Codepoint.connectorRanges.covers n
  | punctuation, n => Codepoint.isPunctuation n
  | alphabetic, n => Codepoint.isAlphabetic n
  | uppercase, n => Codepoint.isUppercase n
  | lowercase, n => Codepoint.isLowercase n
  | whiteSpace, n => isWhiteSpace n
  | horizontalSpace, n => isHorizontalSpace n
  | control, n => isControl n
  | graphic, n => Codepoint.isGraphic n
  | printable, n => (Codepoint.isGraphic n || isHorizontalSpace n) && !isControl n
  | word, n => Codepoint.isWord n
  | asciiDigit, n => Codepoint.isAsciiDigit n
  | alphabeticOrAsciiDigit, n => Codepoint.isAlphabetic n || Codepoint.isAsciiDigit n
  | hexDigit, n => Codepoint.isAsciiDigit n || (0x41 ≤ n && n ≤ 0x46) || (0x61 ≤ n && n ≤ 0x66)
  | sign, n => (Codepoint.isPunctuation n || Codepoint.isSymbol n) && !Codepoint.isAlphabetic n
  | ascii, n => n < 0x80
  | any, _ => true

/-- does the code point have the property in an expression that may know ASCII only? -/
def holdsIn (asciiOnly : Bool) (p : Property) (n : Nat) : Bool := (!asciiOnly || n < 0x80) && p.holds n

/-- what a property that asks for a letter case becomes where case is ignored -/
def withoutCase? : Property → Option Property
  | capital | small | title => some casedLetter
  | uppercase | lowercase => some cased
  | _ => none

end Property

inductive SetItem where
  | range (lo hi : Nat)
  /-- code points with the property, or without it -/
  | property (p : Property) (negated : Bool)
deriving DecidableEq, Hashable, Repr

/-- does the item hold a character with the given case variants? -/
def SetItem.holds (asciiOnly : Bool) (variants : List Nat) : SetItem → Bool
  | range lo hi => variants.any fun n => lo ≤ n && n ≤ hi
  | property p negated => variants.any (p.holdsIn asciiOnly) != negated

inductive CharTest where
  | literal (code : Nat) (caseless : Bool)
  /-- any character, perhaps except the newline -/
  | any (newline : Bool)
  /-- a class on its own -/
  | property (p : Property) (negated caseless : Bool)
  | set (items : List SetItem) (negated caseless : Bool)
deriving DecidableEq, Hashable, Repr

namespace CharTest

/-- the set of the given items; one that is a class alone is that class -/
def ofItems (items : List SetItem) (negated caseless : Bool) : CharTest :=
  match items with
  | [.property p n] => property p (n != negated) caseless
  | _ => set items negated caseless

def accepts (asciiOnly : Bool) : CharTest → Char → Bool
  | literal code caseless, c => isVariant asciiOnly caseless c.toNat code
  | any newline, c => newline || c != '\n'
  | property p negated caseless, c =>
    match if caseless then p.withoutCase? else none with
    | some q => q.holds c.toNat != negated
    | none => p.holdsIn asciiOnly c.toNat != negated
  | set items negated caseless, c =>
    let vs := variants asciiOnly caseless c.toNat
    items.any (SetItem.holds asciiOnly vs) != negated

end CharTest

end UriRouting.Regex
