/-
Reading a regular expression. The reader is a machine that takes its source from left to right, one element at a time.
An open parenthesis puts the sequence it interrupts on a stack of frames; the closing one makes an element of what was
read in between and goes on with the interrupted sequence. The flags that a group sets for itself end with it.

A quantifier belongs to the element just before it, comments and flag groups in between not counted; there must be
one, and one that has a quantifier already does not count again.

A flag group without a body changes the flags from there on, to the end of the group it stands in. What classes and
case know is one choice for the whole expression: the flags in force outside all groups, at its end, make it.

Not all notation of regular expressions is taken up. At the following the reader stops (`Fault.unread`), so that a source
with it is refused here though it may be a regular expression:
- calls of groups and recursion, `(?R)`, `(?1)`, `(?+1)`, `(?&n)`, `(?P>n)`, conditionals, `(?(1)a|b)`, and branches that
  share their groups, `(?|a|b)`;
- the words `(*FAIL)`, `(*F)`, `(*PRUNE)` and `(*SKIP)`, which steer the search;
- the flags `b`, `e`, `f`, `p`, `r`, `w`, `V0` and `V1`;
- the escapes `\K`, `\N`, `\R` and `\X`;
- properties with a value, `\p{Script=Greek}`, and properties by any name that is not in `propertyNames`
  (`Fault.unknownProperty`);
- tolerances of mistakes, `a{e<=1}` (`Fault.tolerance`).
-/
import UriRouting.Regex.Escape
import UriRouting.Regex.Tolerance

namespace UriRouting.Regex

/-- a sequence being read, with the branches before it -/
structure Sequence where
  /-- finished branches, the latest first -/
  branches : List Expr
  /-- elements that a quantifier can no longer reach, the latest first -/
  settled : List Expr
  /-- the element that a quantifier would apply to -/
  last : Option Expr
deriving DecidableEq, Repr

namespace Sequence

def start : Sequence := ⟨[], [], none⟩

/-- the elements read, the latest first -/
def elements (q : Sequence) : List Expr := q.last.toList ++ q.settled

def push (q : Sequence) (e : Expr) : Sequence := { q with settled := q.elements, last := some e }

def nextBranch (q : Sequence) : Sequence :=
  ⟨Expr.ofSequence q.elements.reverse :: q.branches, [], none⟩

def close (q : Sequence) : Expr := Expr.ofBranches q.nextBranch.branches.reverse

end Sequence

/-- what an open parenthesis began -/
inductive Opening where
  | capture (number : Nat)
  | plain
  | atomic
  | look (behind negated : Bool)
deriving DecidableEq, Repr

def Opening.close : Opening → Expr → Expr
  | capture n, e => .group n e
  | plain, e => e
  | atomic, e => .atomic e
  | look behind negated, e => .look behind negated e

structure Frame where
  opening : Opening
  /-- the flags outside -/
  flags : Flags
  /-- the sequence it interrupts -/
  sequence : Sequence
deriving DecidableEq, Repr

structure Machine where
  sequence : Sequence
  /-- open parentheses, the innermost first -/
  frames : List Frame
  /-- the flags in force here -/
  flags : Flags
  /-- how many groups have been opened -/
  groups : Nat
  names : List (Text × Nat)
deriving DecidableEq, Repr

/-- what a quantifier asks for beside its limits -/
inductive Greed where
  | greedy
  | lazy
  | possessive
deriving DecidableEq, Repr

/-- the element under a quantifier; one that is wanted exactly once stays as it is -/
def quantify (e : Expr) (limits : Limits) (greed : Greed) : Expr :=
  if limits = (1, some 1) then e
  else
    match greed with
    | .greedy => .repeated e ⟨limits.1, limits.2, false⟩
    | .lazy => .repeated e ⟨limits.1, limits.2, true⟩
    | .possessive => .atomic (.repeated e ⟨limits.1, limits.2, false⟩)

def greed (verbose : Bool) (s : Text) : Greed × Text :=
  match next? verbose s with
  | some ('?', rest) => (.lazy, rest)
  | some ('+', rest) => (.possessive, rest)
  | _ => (.greedy, s)

namespace Machine

def start : Machine := ⟨.start, [], [], 0, []⟩

def verbose (m : Machine) : Bool := m.flags.contains .verbose

def push (m : Machine) (e : Expr) : Machine := { m with sequence := m.sequence.push e }

def pushChar (m : Machine) (n : Nat) : Machine := m.push (.char (.literal n m.flags.caseless))

def enter (m : Machine) (o : Opening) : Machine :=
  { m with sequence := .start, frames := ⟨o, m.flags, m.sequence⟩ :: m.frames }

def enterGroup (m : Machine) : Machine := { m.enter (.capture (m.groups + 1)) with groups := m.groups + 1 }

/-- a group with a name opened; a name in use is the group that has it -/
def enterNamed (m : Machine) (name : Text) : Machine :=
  match m.names.lookup name with
  | some n => m.enter (.capture n)
  | none =>
    { m.enter (.capture (m.groups + 1)) with groups := m.groups + 1, names := m.names ++ [(name, m.groups + 1)] }

def leave (m : Machine) : Except Fault Machine :=
  match m.frames with
  | [] => .error .unbalancedParenthesis
  | f :: rest =>
    .ok { m with sequence := f.sequence.push (f.opening.close m.sequence.close), frames := rest, flags := f.flags }

def isOpen (m : Machine) (r : Reference) : Bool :=
  match r.resolve m.names with
  | some n => m.frames.any fun f => f.opening = .capture n
  | none => false

/-- a back-reference read; it may not lie within the group it means -/
def pushReference (m : Machine) (r : Reference) : Except Fault Machine :=
  if m.isOpen r then .error .badGroupReference else .ok (m.push (.backref r m.flags.caseless))

def pushEscaped (m : Machine) : Escaped → Except Fault Machine
  | .code n => .ok (m.pushChar n)
  | .item i => .ok (m.push (.char (.ofItems [i] false m.flags.caseless)))
  | .anchor a => .ok (m.push (.anchor a))
  | .reference r => m.pushReference r

/-- the element before a quantifier repeated, the source behind the limits given -/
def repeatLast (m : Machine) (limits : Limits) (s : Text) : Except Fault (Machine × Text) :=
  match m.sequence.last with
  | none => .error .nothingToRepeat
  | some e =>
    let (g, rest) := greed m.verbose s
    let q := { m.sequence with settled := quantify e limits g :: m.sequence.settled, last := none }
    .ok ({ m with sequence := q }, rest)

/-- a flag group, read from behind its question mark -/
def flagGroup (m : Machine) (s : Text) : Except Fault (Machine × Text) :=
  match flagChange m.verbose s with
  | .error f => .error (extensionFault m.verbose s f)
  | .ok ((on, off), rest) =>
    let flags := (m.flags.add on).remove off
    match accept? m.verbose ':' rest, accept? m.verbose ')' rest with
    | some rest, _ => .ok ({ m.enter .plain with flags }, rest)
    | none, some rest => .ok ({ m with flags }, rest)
    | none, none => .error (extensionFault m.verbose s .unknownExtension)

/-- a named group, read from behind its opening angle bracket -/
def namedGroup (m : Machine) (s : Text) : Except Fault (Machine × Text) :=
  match groupName m.verbose s with
  | .error f => .error f
  | .ok (name, rest) =>
    match accept? m.verbose '>' rest with
    | none => .error .badGroupName
    | some rest => .ok (m.enterNamed name, rest)

/-- a named back-reference, read from behind its equals sign -/
def namedReference (m : Machine) (s : Text) : Except Fault (Machine × Text) :=
  match groupReference m.verbose s with
  | .error f => .error f
  | .ok (r, rest) =>
    match accept? m.verbose ')' rest with
    | none => .error .missingParenthesis
    | some rest => (m.pushReference r).map (·, rest)

/-- a back-reference in angle brackets, read from behind its letter; what is none is the letter -/
def angleReference (m : Machine) (s : Text) : Except Fault (Machine × Text) :=
  match Regex.angleReference m.verbose s with
  | .ok (r, rest) =>
    if m.isOpen r then .ok (m.pushChar 'g'.toNat, s) else .ok (m.push (.backref r m.flags.caseless), rest)
  | .error (.unreadableNumber digits) => .error (.unreadableNumber digits)
  | .error _ => .ok (m.pushChar 'g'.toNat, s)

/-- what a word behind a star fails with: those that steer the search are not taken up -/
def verbFault (word : Text) : Fault :=
  if String.ofList word ∈ ["F", "FAIL", "PRUNE", "SKIP"] then .unread else .unknownExtension

/-- a parenthesis, read from behind it -/
def parenthesis (m : Machine) (s : Text) : Except Fault (Machine × Text) :=
  match s with
  | '?' :: '<' :: rest =>
    match next? m.verbose rest with
    | some ('=', rest) => .ok (m.enter (.look true false), rest)
    | some ('!', rest) => .ok (m.enter (.look true true), rest)
    | _ => m.namedGroup rest
  | '?' :: '=' :: rest => .ok (m.enter (.look false false), rest)
  | '?' :: '!' :: rest => .ok (m.enter (.look false true), rest)
  | '?' :: '>' :: rest => .ok (m.enter .atomic, rest)
  | '?' :: '#' :: rest =>
    match pastComment rest with
    | some rest => .ok (m, rest)
    | none => .error .missingParenthesis
  | '?' :: 'P' :: rest =>
    match next? m.verbose rest with
    | some ('<', rest) => m.namedGroup rest
    | some ('=', rest) => m.namedReference rest
    | other => .error (if other.any fun x => x.1 == '>' || x.1 == '&' then .unread else .unknownExtension)
  | '?' :: rest => m.flagGroup rest
  | '*' :: rest =>
    if (groupText m.verbose rest).1.head?.any Char.isAlpha then .error (verbFault (groupText m.verbose rest).1)
    else .ok (m.enterGroup, s)
  | _ => .ok (m.enterGroup, s)

def step (m : Machine) (c : Char) (s : Text) : Except Fault (Machine × Text) :=
  match c, s with
  | '|', _ => .ok ({ m with sequence := m.sequence.nextBranch }, s)
  | ')', _ => m.leave.map (·, s)
  | '(', _ => m.parenthesis s
  | '\\', 'g' :: rest => m.angleReference rest
  | '\\', _ =>
    match escape m.flags.octalWrap m.verbose false s with
    | .error f => .error f
    | .ok (e, rest) => (m.pushEscaped e).map (·, rest)
  | '.', _ => .ok (m.push (.char (.any (m.flags.contains .dotAll))), s)
  | '[', _ => (set m.flags.caseless s).map fun (t, rest) => (m.push (.char t), rest)
  | '^', _ => .ok (m.push (.anchor (if m.flags.contains .multiline then .lineStart else .textStart)), s)
  | '$', _ => .ok (m.push (.anchor (if m.flags.contains .multiline then .lineEnd else .finalLineEnd)), s)
  | '?', _ => m.repeatLast (0, some 1) s
  | '*', _ => m.repeatLast (0, none) s
  | '+', _ => m.repeatLast (1, none) s
  | '{', _ =>
    match limits? m.verbose s with
    | .error f => .error f
    | .ok none => (checkTolerance m.verbose s).map fun _ => (m.pushChar c.toNat, s)
    | .ok (some (limits, rest)) => m.repeatLast limits rest
  | _, _ => .ok (m.pushChar c.toNat, s)

def run (m : Machine) (s : Text) : Except Fault Machine :=
  match next? m.verbose s with
  | none => .ok m
  | some (c, rest) =>
    match m.step c rest with
    | .error f => .error f
    | .ok (m, rest) => if rest.length < s.length then run m rest else .error .unknownExtension
termination_by s.length

def finish (m : Machine) : Except Fault Program :=
  if !m.frames.isEmpty then .error .missingParenthesis
  else if !m.flags.areCompatible then .error .incompatibleFlags
  else
    let p : Program := ⟨m.sequence.close, m.groups, m.names, m.flags.asciiOnly⟩
    if p.root.references.all p.knows then .ok p else .error .badGroupReference

end Machine

/-- the regular expression that a source writes -/
def parse (s : Text) : Except Fault Program :=
  match Machine.start.run s with
  | .error f => .error f
  | .ok m => m.finish

end UriRouting.Regex
