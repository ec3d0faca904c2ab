/-
Flags of a regular expression, and what can be wrong with its source.
-/
import UriRouting.Regex.CharTest

namespace UriRouting.Regex

/-- a setting that flag groups turn on and off -/
inductive Flag where
  /-- classes know ASCII only -/
  | ascii
  | caseless
  /-- classes follow the locale, which knows ASCII only -/
  | locale
  /-- `^` and `$` also match at line ends -/
  | multiline
  /-- the dot also matches a newline -/
  | dotAll
  /-- classes follow the tables -/
  | unicode
  /-- blanks and comments in the source are skipped -/
  | verbose
deriving DecidableEq, Repr

def Flag.ofLetter? : Char → Option Flag
  | 'a' => some ascii
  | 'i' => some caseless
  | 'L' => some locale
  | 'm' => some multiline
  | 's' => some dotAll
  | 'u' => some unicode
  | 'x' => some verbose
  | _ => none

abbrev Flags := List Flag

namespace Flags

def add (fs more : Flags) : Flags := fs ++ more.filter fun f => !fs.contains f

def remove (fs off : Flags) : Flags := fs.filter fun f => !off.contains f

def caseless (fs : Flags) : Bool := fs.contains .caseless

def asciiOnly (fs : Flags) : Bool := fs.contains .ascii || fs.contains .locale

/-- at most one of the three flags that choose the classes is on -/
def areCompatible (fs : Flags) : Bool :=
  (fs.filter fun f => f == .ascii || f == .locale || f == .unicode).eraseDups.length ≤ 1

/-- octal codes wrap where this many are counted: at a byte, when ASCII is chosen and nothing else -/
def octalWrap (fs : Flags) : Nat := if fs.asciiOnly && fs.areCompatible then 0x100 else 0x200

end Flags

inductive Fault where
  | unbalancedParenthesis
  | missingParenthesis
  | nothingToRepeat
  | badRepeatLimits
  /-- a tolerance of mistakes, where matching is exact -/
  | tolerance
  | badEscape
  | badGroupReference
  | unterminatedSet
  | badRange
  | unknownProperty
  | unknownExtension
  | badGroupName
  | badFlags
  /-- flags are on that exclude each other; this is no fault of the notation -/
  | incompatibleFlags
  /-- digits that write no number where one is read; this is no fault of the notation either -/
  | unreadableNumber (digits : Text)
  /-- notation that the reader does not take up -/
  | unread
deriving DecidableEq, Repr

end UriRouting.Regex
