/-
Reading the source of a regular expression piece by piece. Each reader takes the source that is left and gives what it
read with the source after it. With the verbose flag on, blanks and comments before a piece are skipped; a comment runs
from a number sign to the end of its line.
-/
import UriRouting.Codepoint.Identifier
import UriRouting.Decimal.Natural
import UriRouting.Regex.Flags
import UriRouting.Regex.Basic

namespace UriRouting.Regex

/-- the source past blanks and comments; at first within a comment, if so told -/
def pastBlanks : Bool → Text → Text
  | _, [] => []
  | true, c :: rest => pastBlanks (c != '\n') rest
  | false, c :: rest =>
    if isBlank c then pastBlanks false rest else if c = '#' then pastBlanks true rest else c :: rest

def skip (verbose : Bool) (s : Text) : Text := if verbose then pastBlanks false s else s

/-- the next character that counts -/
def next? (verbose : Bool) (s : Text) : Option (Char × Text) :=
  match skip verbose s with
  | [] => none
  | c :: rest => some (c, rest)

/-- the source after the given character, when that is next -/
def accept? (verbose : Bool) (c : Char) (s : Text) : Option Text :=
  match next? verbose s with
  | some (d, rest) => if c = d then some rest else none
  | none => none

/-- the characters that count, up to the first that fails the test -/
def takeCounting (p : Char → Bool) : Bool → Text → Text × Text
  | _, [] => ([], [])
  | true, c :: rest => takeCounting p (c != '\n') rest
  | false, c :: rest =>
    if isBlank c then takeCounting p false rest
    else if c = '#' then takeCounting p true rest
    else if p c then (c :: (takeCounting p false rest).1, (takeCounting p false rest).2)
    else ([], c :: rest)

def takeRun (verbose : Bool) (p : Char → Bool) (s : Text) : Text × Text :=
  if verbose then takeCounting p false s else (s.takeWhile p, s.dropWhile p)

def isDigit (c : Char) : Bool := '0' ≤ c && c ≤ '9'

def isOctal (c : Char) : Bool := '0' ≤ c && c ≤ '7'

/-- the value of a digit in any base up to sixteen -/
def digitValue (c : Char) : Nat :=
  if isDigit c then c.toNat - 0x30 else if 'a' ≤ c then c.toNat - 0x57 else c.toNat - 0x37

def isHex (c : Char) : Bool := isDigit c || ('a' ≤ c && c ≤ 'f') || ('A' ≤ c && c ≤ 'F')

def numberIn (base : Nat) (ds : Text) : Nat := ds.foldl (fun n d => n * base + digitValue d) 0

/-- the lower and the upper limit of a repetition, the upper one open when absent -/
abbrev Limits := Nat × Option Nat

/-- counts of repetitions stay below this -/
def countLimit : Nat := (1 <<< 32) - 1

def areLimits (l : Limits) : Bool := l.1 < countLimit && l.2.all fun n => n < countLimit && l.1 ≤ n

def writtenLimits (lower upper : Text) : Limits :=
  (numberIn 10 lower, if upper.isEmpty then none else some (numberIn 10 upper))

/-- limits in braces, read from behind the opening brace as far as their closing one; none when no limits stand there.
Limits that no repetition may have are a fault even when no brace closes them -/
def limits? (verbose : Bool) (s : Text) : Except Fault (Option (Limits × Text)) :=
  let (lower, rest) := takeRun verbose isDigit s
  match accept? verbose ',' rest with
  | some rest =>
    let (upper, rest) := takeRun verbose isDigit rest
    checked lower upper rest
  | none => if lower.isEmpty then .ok none else checked lower lower rest
where
  checked (lower upper rest : Text) : Except Fault (Option (Limits × Text)) :=
    if Decimal.readableLength < lower.length then .error (.unreadableNumber lower)
    else if Decimal.readableLength < upper.length then .error (.unreadableNumber upper)
    else if areLimits (writtenLimits lower upper) then
      .ok ((accept? verbose '}' rest).map (writtenLimits lower upper, ·))
    else .error .badRepeatLimits

def groupText (verbose : Bool) (s : Text) : Text × Text := takeRun verbose (fun c => c != ')' && c != '>') s

def isGroupName (t : Text) : Bool := Codepoint.isIdentifier (t.map Char.toNat)

def groupName (verbose : Bool) (s : Text) : Except Fault (Text × Text) :=
  let (name, rest) := groupText verbose s
  if isGroupName name then .ok (name, rest) else .error .badGroupName

/-- the number that decimal digits of any script write, if they are not too many -/
def decimalNumber? (t : Text) : Option Nat :=
  if t.length ≤ Decimal.readableLength ∧ t.all fun c => Codepoint.isDecimalDigit c.toNat then
    some (t.foldl (fun n c => n * 10 + Codepoint.decimalValue c.toNat) 0)
  else none

/-- the name or the number that a back-reference gives. Digits are read as a number, which superscripts and the like do
not write -/
def groupReference (verbose : Bool) (s : Text) : Except Fault (Reference × Text) :=
  let (name, rest) := groupText verbose s
  if !name.isEmpty && name.all fun c => Codepoint.isDigit c.toNat then
    match decimalNumber? name with
    | some 0 => .error .badGroupName
    | some n => .ok (.number n, rest)
    | none => .error (.unreadableNumber name)
  else if isGroupName name then .ok (.name name, rest)
  else .error .badGroupName

/-- what a conditional fails with, read from behind its second parenthesis: it is not taken up, but the group that it asks
for is read like that of a back-reference -/
def conditionFault (verbose : Bool) (s : Text) : Fault :=
  match groupReference verbose s with
  | .error (.unreadableNumber digits) => .unreadableNumber digits
  | .error f => if (next? verbose s).any fun x => x.1 == '?' then .unread else f
  | .ok _ => .unread

/-- a comment, read from behind its opening; a backslash hides the character after it -/
def pastComment : Text → Option Text
  | [] => none
  | ')' :: rest => some rest
  | '\\' :: _ :: rest => pastComment rest
  | _ :: rest => pastComment rest

def flagLetters (verbose : Bool) (s : Text) : Flags × Text :=
  let (letters, rest) := takeRun verbose (fun c => (Flag.ofLetter? c).isSome) s
  (letters.filterMap Flag.ofLetter?, rest)

def flagChange (verbose : Bool) (s : Text) : Except Fault ((Flags × Flags) × Text) :=
  let (on, rest) := flagLetters verbose s
  match accept? verbose '-' rest with
  | none => .ok ((on, []), rest)
  | some rest =>
    let (off, rest) := flagLetters verbose rest
    if off.isEmpty ∨ off.any on.contains then .error .badFlags else .ok ((on, off), rest)

/-- does a call of a group begin here, or branches that share their groups? -/
def beginsCall : Text → Bool
  | '+' :: d :: _ | '-' :: d :: _ => isDigit d
  | c :: _ => c == 'R' || c == '&' || c == '|' || isDigit c
  | [] => false

/-- do flags that are taken up go on with one that is not? -/
def hasUnreadFlag (verbose : Bool) (s : Text) : Bool :=
  (next? verbose (takeRun verbose (fun c => (Flag.ofLetter? c).isSome || c == '-') s).2).any fun x =>
    "befprwV".toList.contains x.1

/-- what fails where no flag group stands behind a question mark, if it is no extension that is not taken up -/
def extensionFault (verbose : Bool) (s : Text) (f : Fault) : Fault :=
  match s with
  | '(' :: rest => conditionFault verbose rest
  | _ => if beginsCall s || hasUnreadFlag verbose s then .unread else f

end UriRouting.Regex
