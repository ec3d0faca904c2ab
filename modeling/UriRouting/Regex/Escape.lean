/-
Escapes and sets. An escape is a backslash and what it takes with it: a character code, a class of characters, an
anchor or a back-reference. A set is a list of characters, ranges and classes between brackets; within it neither the
verbose flag nor a character's meaning outside counts.
-/
import UriRouting.Regex.Reader

namespace UriRouting.Regex

inductive Escaped where
  | code (n : Nat)
  | item (i : SetItem)
  | anchor (a : Anchor)
  | reference (r : Reference)
deriving DecidableEq, Repr

/-- the properties that have names; a name is compared without blanks, dashes and low lines, and without case -/
def propertyNames : List (String × Property) :=
  [("l", .letter), ("letter", .letter), ("lu", .capital), ("uppercaseletter", .capital), ("ll", .small),
   ("lowercaseletter", .small), ("lt", .title), ("titlecaseletter", .title), ("lc", .casedLetter),
   ("casedletter", .casedLetter), ("l&", .casedLetter), ("cased", .cased), ("m", .mark), ("mark", .mark),
   ("nd", .decimalDigit), ("decimalnumber", .decimalDigit), ("digit", .decimalDigit),
   ("pc", .connector), ("connectorpunctuation", .connector), ("p", .punctuation),
   ("punctuation", .punctuation), ("punct", .punctuation), ("alpha", .alphabetic), ("alphabetic", .alphabetic),
   ("upper", .uppercase), ("uppercase", .uppercase), ("lower", .lowercase), ("lowercase", .lowercase),
   ("space", .whiteSpace), ("whitespace", .whiteSpace), ("blank", .horizontalSpace), ("cntrl", .control),
   ("cc", .control), ("control", .control), ("graph", .graphic), ("print", .printable), ("word", .word),
   ("xdigit", .hexDigit), ("hexdigit", .hexDigit), ("ascii", .ascii), ("any", .any)]

/-- the classes that a set names between bracketed colons with a meaning of their own there -/
def bracketClassNames : List (String × Property) :=
  [("digit", .asciiDigit), ("alnum", .alphabeticOrAsciiDigit), ("punct", .sign), ("xdigit", .hexDigit)]

/-- a property name as it is compared -/
def normalName (name : Text) : String :=
  String.ofList ((name.filter fun c => c != ' ' && c != '-' && c != '_').map Char.toLower)

def isPropertyNameChar (c : Char) : Bool :=
  c.isAlphanum || c == ' ' || c == '&' || c == '_' || c == '-' || c == '.'

def isPropertyValueChar (c : Char) : Bool :=
  c.isAlphanum || c == ' ' || c == '&' || c == '_' || c == '-' || c == '.' || c == '/'

/-- the source behind the value of a property, its name read; none when no value stands there -/
def pastValue? (verbose : Bool) (s : Text) : Option Text :=
  match next? verbose s with
  | none => none
  | some (c, rest) =>
    let (value, rest) := takeRun verbose isPropertyValueChar rest
    if (c = ':' ∨ c = '=') ∧ value.any (· != ' ') then some rest else none

def property (name : Text) : Except Fault Property :=
  match propertyNames.lookup (normalName name) with
  | some p => .ok p
  | none => .error .unknownProperty

/-- a property in braces, read from behind the opening one; none when it is not closed. One with a value is not taken up -/
def bracedProperty (verbose negated : Bool) (s : Text) : Except Fault (Option (SetItem × Text)) :=
  let (name, rest) := takeRun verbose isPropertyNameChar s
  match accept? verbose '}' rest with
  | some rest => (property name).map fun p => some (.property p negated, rest)
  | none =>
    match (pastValue? verbose rest).bind (accept? verbose '}') with
    | some _ => .error .unread
    | none => .ok none

/-- the property of an escape, read from behind its letter; none when the letter is just a letter -/
def propertyEscape (verbose negated : Bool) (s : Text) : Except Fault (Option (SetItem × Text)) :=
  match next? verbose s with
  | some ('{', rest) =>
    match accept? verbose '^' rest with
    | some rest => bracedProperty verbose (!negated) rest
    | none => bracedProperty verbose negated rest
  | some (c, rest) =>
    if c ∈ "CLMNPSZ".toList then
      (property [c]).map fun p => some (.property p negated, rest)
    else .ok none
  | none => .ok none

/-- exactly so many hexadecimal digits -/
def hexEscape (verbose : Bool) : Nat → Nat → Text → Except Fault (Escaped × Text)
  | 0, n, s => if n < 0x110000 then .ok (.code n, s) else .error .badEscape
  | k + 1, n, s =>
    match next? verbose s with
    | some (c, rest) => if isHex c then hexEscape verbose k (n * 16 + digitValue c) rest else .error .badEscape
    | none => .error .badEscape

def octalDigit? (verbose : Bool) (s : Text) : Option (Char × Text) :=
  match next? verbose s with
  | some (c, rest) => if isOctal c then some (c, rest) else none
  | none => none

/-- an octal code of up to three digits, the first of them read -/
def octalEscape (verbose : Bool) (first : Char) (s : Text) : Except Fault (Escaped × Text) :=
  if !isOctal first then .error .badEscape
  else
    match octalDigit? verbose s with
    | none => .ok (.code (digitValue first), s)
    | some (second, rest) =>
      match octalDigit? verbose rest with
      | none => .ok (.code (numberIn 8 [first, second]), rest)
      | some (third, rest) => .ok (.code (numberIn 8 [first, second, third]), rest)

/-- a number behind a backslash outside sets, its first digit read: three octal digits are a code, which is taken modulo
`wrap`, one or two digits a back-reference -/
def numberEscape (wrap : Nat) (verbose : Bool) (first : Char) (s : Text) : Escaped × Text :=
  match next? verbose s with
  | some (second, rest) =>
    if isDigit second then
      match octalDigit? verbose rest with
      | some (third, more) =>
        if isOctal first && isOctal second then
          (.code (numberIn 8 [first, second, third] % wrap), more)
        else (.reference (.number (numberIn 10 [first, second])), rest)
      | none => (.reference (.number (numberIn 10 [first, second])), rest)
    else (.reference (.number (numberIn 10 [first])), s)
  | none => (.reference (.number (numberIn 10 [first])), s)

def classLetter? : Char → Option SetItem
  | 'd' => some (.property .decimalDigit false)
  | 'D' => some (.property .decimalDigit true)
  | 'h' => some (.property .horizontalSpace false)
  | 's' => some (.property .whiteSpace false)
  | 'S' => some (.property .whiteSpace true)
  | 'w' => some (.property .word false)
  | 'W' => some (.property .word true)
  | _ => none

def anchorLetter? : Char → Option Anchor
  | 'A' | 'G' => some .textStart
  | 'Z' => some .textEnd
  | 'm' => some .wordStart
  | 'M' => some .wordEnd
  | 'b' => some .wordBoundary
  | 'B' => some .noWordBoundary
  | _ => none

def controlLetter? : Char → Option Nat
  | 'a' => some 0x07
  | 'b' => some 0x08
  | 'f' => some 0x0C
  | 'n' => some 0x0A
  | 'r' => some 0x0D
  | 't' => some 0x09
  | 'v' => some 0x0B
  | _ => none

/-- a back-reference in angle brackets, read from behind its letter -/
def angleReference (verbose : Bool) (s : Text) : Except Fault (Reference × Text) :=
  match accept? verbose '<' s with
  | none => .error .badGroupReference
  | some rest =>
    match groupReference verbose rest with
    | .error f => .error f
    | .ok (r, rest) =>
      match accept? verbose '>' rest with
      | none => .error .badGroupReference
      | some rest => .ok (r, rest)

/-- what a letter behind a backslash fails with where it stands for nothing. There are no lists to be named; characters
by name, line ends, clusters and a start set anew are not taken up -/
def letterFault (verbose inSet : Bool) (c : Char) (s : Text) : Fault :=
  if c = 'N' then .unread
  else if inSet then .badEscape
  else if c = 'L' then
    match angleReference verbose s with
    | .error f => f
    | .ok _ => .badEscape
  else if c ∈ "KRX".toList then .unread
  else .badEscape

/-- an escape other than a back-reference in angle brackets, read from behind its backslash -/
def escape (wrap : Nat) (verbose inSet : Bool) (s : Text) : Except Fault (Escaped × Text) :=
  match s with
  | [] => .error .badEscape
  | c :: rest =>
    if c = 'x' then hexEscape verbose 2 0 rest
    else if c = 'u' then hexEscape verbose 4 0 rest
    else if c = 'U' then hexEscape verbose 8 0 rest
    else if c = 'p' ∨ c = 'P' then
      match propertyEscape verbose (c == 'P') rest with
      | .error f => .error f
      | .ok (some (item, rest)) => .ok (.item item, rest)
      | .ok none => .ok (.code c.toNat, rest)
    else if c.isAlpha then
      match (if inSet then none else anchorLetter? c), classLetter? c, controlLetter? c with
      | some a, _, _ => .ok (.anchor a, rest)
      | none, some item, _ => .ok (.item item, rest)
      | none, none, some n => .ok (.code n, rest)
      | none, none, none => .error (letterFault verbose inSet c rest)
    else if isDigit c then
      if inSet ∨ c = '0' then octalEscape verbose c rest else .ok (numberEscape wrap verbose c rest)
    else .ok (.code c.toNat, rest)

/-- the source behind the two characters that close a class -/
def pastClass? : Text → Option Text
  | ':' :: ']' :: rest => some rest
  | _ => none

/-- the class of a name, read from behind the name; none when it is not closed. One with a value is not taken up -/
def closedClass (negated : Bool) (name s : Text) : Except Fault (Option (SetItem × Text)) :=
  match pastClass? s with
  | some rest =>
    match bracketClassNames.lookup (normalName name) with
    | some p => .ok (some (.property p negated, rest))
    | none => (property name).map fun p => some (.property p negated, rest)
  | none =>
    match (pastValue? false s).bind pastClass? with
    | some _ => .error .unread
    | none => .ok none

/-- a class between bracketed colons, read from behind the opening; none when it is not closed -/
def bracketClass (s : Text) : Except Fault (Option (SetItem × Text)) :=
  let (negated, rest) :=
    match s with
    | '^' :: rest => (true, rest)
    | _ => (false, s)
  closedClass negated (rest.takeWhile isPropertyNameChar) (rest.dropWhile isPropertyNameChar)

/-- one character or class of a set -/
def setElement (s : Text) : Except Fault (Escaped × Text) :=
  match s with
  | [] => .error .unterminatedSet
  | '\\' :: rest => escape 0x200 false true rest
  | '[' :: ':' :: rest =>
    match bracketClass rest with
    | .error f => .error f
    | .ok (some (item, rest)) => .ok (.item item, rest)
    | .ok none => .ok (.code '['.toNat, ':' :: rest)
  | c :: rest => .ok (.code c.toNat, rest)

/-- the set item that an escape is within a set -/
def Escaped.toItem : Escaped → SetItem
  | code n => .range n n
  | item i => i
  | anchor _ | reference _ => .range 1 0

/-- a member of a set: an element, or two of them with a dash between. A dash before the closing bracket is a member
itself, as is one between a character and a class -/
def setMember (s : Text) : Except Fault (List SetItem × Text) :=
  match setElement s with
  | .error f => .error f
  | .ok (.code lo, '-' :: rest) =>
    match rest with
    | ']' :: _ => .ok ([.range lo lo, .range 0x2D 0x2D], rest)
    | _ =>
      match setElement rest with
      | .error f => .error f
      | .ok (.code hi, rest) => if lo ≤ hi then .ok ([.range lo hi], rest) else .error .badRange
      | .ok (other, rest) => .ok ([.range lo lo, .range 0x2D 0x2D, other.toItem], rest)
  | .ok (e, rest) => .ok ([e.toItem], rest)

/-- the members of a set up to its closing bracket, after the first -/
def setMembers : Text → Except Fault (List SetItem × Text)
  | [] => .error .unterminatedSet
  | ']' :: rest => .ok ([], rest)
  | c :: s =>
    match setMember (c :: s) with
    | .error f => .error f
    | .ok (items, rest) =>
      if rest.length ≤ s.length then
        (setMembers rest).map fun (more, rest) => (items ++ more, rest)
      else .error .unterminatedSet
termination_by s => s.length

/-- a set, read from behind its opening bracket; a closing bracket in first place is a member -/
def set (caseless : Bool) (s : Text) : Except Fault (CharTest × Text) :=
  let (negated, rest) :=
    match s with
    | '^' :: rest => (true, rest)
    | _ => (false, s)
  match setMember rest with
  | .error f => .error f
  | .ok (items, rest) =>
    (setMembers rest).map fun (more, rest) => (.ofItems (items ++ more) negated caseless, rest)

end UriRouting.Regex
