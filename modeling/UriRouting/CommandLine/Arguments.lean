/-
Reading words by a grammar. A word is an option when it names a switch, in full or by the start of its long name, or
when it starts with a dash and is no negative number and has no blank in it; short names may share a dash. Every word
behind a lone `--` is an operand.

Options may stand between operands. Between two options the operands take as many words as they can, in order: one that
takes any number of words is satisfied by none, and gets no second chance. Words that nobody takes are handed back.
Switches act in the order they stand, so the first one that asks for help ends the reading; a word that could mean two
switches is a fault before anything else is. An operand whose one word is a `--` has no word.
-/
import UriRouting.CommandLine.Grammar
import UriRouting.Text.Quoted
import UriRouting.Codepoint.DecimalDigit

namespace UriRouting.CommandLine

/-- a way to end a reading before its end -/
inductive Stop where
  /-- help is asked for -/
  | help
  /-- the words do not fit the grammar, told in words -/
  | fault (words : Text)
deriving DecidableEq, Repr

/-- what a word is -/
inductive Item where
  | operand (word : Text)
  /-- the `--` behind which all words are operands -/
  | separator
  /-- a switch by one of its names, and what the word attaches to the name -/
  | switch (word : Text) (s : Switch) (name : Text) (attached : Option Text)
  /-- an option that the grammar does not know -/
  | unknown (word : Text)
deriving DecidableEq, Repr

namespace Item

def word : Item → Text
  | operand w | switch w _ _ _ | unknown w => w
  | separator => "--".toList

def isOption : Item → Bool
  | switch _ _ _ _ | unknown _ => true
  | operand _ | separator => false

end Item

/-- what a reading found -/
structure Arguments where
  /-- the switches, in the order they stand -/
  switches : List Switch
  /-- the words of each operand, in the order of the grammar -/
  values : List (List Text)
  /-- words that nobody took -/
  extras : List Text
deriving DecidableEq, Repr

namespace Arguments

def wordsAt (a : Arguments) (n : Nat) : List Text := (a.values[n]?).getD []

def word? (a : Arguments) (n : Nat) : Option Text := (a.wordsAt n).head?

/-- the word of the operand at a position; the empty text when it has none -/
def wordAt (a : Arguments) (n : Nat) : Text := (a.word? n).getD []

end Arguments

/-- the fault of text attached to a switch -/
def ignored (s : Switch) (attached : Text) : Stop :=
  .fault ("argument ".toList ++ s.short ++ '/' :: s.long ++ ": ignored explicit argument ".toList ++ attached.quoted)

/-- a negative number in decimal notation; a newline may follow it -/
def isNegativeNumber : Text → Bool
  | '-' :: t =>
    let isDigit := fun c : Char => Codepoint.isDecimalDigit c.toNat
    let isEnd := fun t : Text => t = [] || t = ['\n']
    let whole := t.takeWhile isDigit
    match t.dropWhile isDigit with
    | '.' :: fraction => !(fraction.takeWhile isDigit).isEmpty && isEnd (fraction.dropWhile isDigit)
    | rest => !whole.isEmpty && isEnd rest
  | _ => false

namespace Grammar

def names (g : Grammar) : List (Text × Switch) := g.switches.flatMap fun s => [(s.short, s), (s.long, s)]

/-- a word up to its first `=`, and what stands behind that -/
def splitValue (word : Text) : Text × Option Text := word.cutAt '='

/-- the names that an option could mean which is no name itself, each with its switch and what is attached to it: long
names that start like it, or the short name that it starts with -/
def candidates (g : Grammar) (word : Text) : List (Text × Switch × Option Text) :=
  if (Text.after? "--".toList word).isSome then
    let (start, attached) := splitValue word
    (g.names.filter fun (name, _) => (Text.after? start name).isSome).map fun (name, s) => (name, s, attached)
  else (g.names.filter fun (name, _) => name = word.take 2).map fun (name, s) => (name, s, some (word.drop 2))

/-- what a word of two characters or more is that starts with a dash -/
def readOption (g : Grammar) (word : Text) : Except Stop Item :=
  let (name, attached) := splitValue word
  match g.names.lookup name with
  | some s => .ok (.switch word s name attached)
  | none =>
    match g.candidates word with
    | [(name, s, attached)] => .ok (.switch word s name attached)
    | [] => .ok (if isNegativeNumber word || word.contains ' ' then .operand word else .unknown word)
    | several =>
      .error (.fault ("ambiguous option: ".toList ++ word ++ " could match ".toList ++
        Text.joinWith [',', ' '] (several.map Prod.fst)))

/-- what a word is that stands before any `--` -/
def readWord (g : Grammar) (word : Text) : Except Stop Item :=
  match word with
  | '-' :: _ :: _ => g.readOption word
  | _ => .ok (.operand word)

def readWords (g : Grammar) : List Text → Except Stop (List Item)
  | [] => .ok []
  | word :: rest =>
    if word = "--".toList then .ok (.separator :: rest.map .operand)
    else
      match g.readWord word with
      | .error e => .error e
      | .ok item => (g.readWords rest).map (item :: ·)

/-- the switches that a short name stands for, and the letters attached to it: each letter is the short name of one -/
def cluster (g : Grammar) (s : Switch) : Text → Except Stop (List Switch)
  | [] => .ok [s]
  | c :: rest =>
    match g.names.lookup ['-', c] with
    | none => .error (ignored s (c :: rest))
    | some t => (g.cluster t rest).map (s :: ·)

/-- the switches that a name stands for with what is attached to it; nothing can be attached to a long name, and to a
short one no empty text -/
def switchesOf (g : Grammar) (s : Switch) (name : Text) : Option Text → Except Stop (List Switch)
  | none => .ok [s]
  | some attached =>
    if attached.isEmpty || (Text.after? "--".toList name).isSome then .error (ignored s attached)
    else g.cluster s attached

end Grammar

/-- the items that are operands or separators at the start, and the items behind them -/
def Arity.take? : Arity → List Item → Option (List Item × List Item)
  | .one, items =>
    let isSeparator := fun i : Item => i = .separator
    match items.dropWhile isSeparator with
    | .operand w :: rest =>
      some (items.takeWhile isSeparator ++ .operand w :: rest.takeWhile isSeparator, rest.dropWhile isSeparator)
    | _ => none
  | .many, items => some (items.takeWhile (!·.isOption), items.dropWhile (!·.isOption))
  | .remainder, items =>
    match items.dropWhile (· = .separator) with
    | .operand _ :: _ => some (items, [])
    | _ => none

/-- the words of an operand: the separator is none of them, unless it takes all that follows -/
def Arity.words (a : Arity) (items : List Item) : List Text :=
  let words := items.map Item.word
  match a with
  | .remainder => words
  | .one | .many => words.erase "--".toList

/-- as many of the operands as the items satisfy: their words, the operands and the items that are left -/
def fill : List Operand → List Item → List (List Text) × List Operand × List Item
  | [], items => ([], [], items)
  | o :: rest, items =>
    match o.arity.take? items with
    | none => ([], o :: rest, items)
    | some (taken, items) =>
      let (values, operands, items) := fill rest items
      (o.arity.words taken :: values, operands, items)

def required (operands : List Operand) : List Text :=
  (operands.filter fun o => o.arity ≠ .remainder).map Operand.label

namespace Grammar

/-- the reading of items by the operands that are left, at most so many steps of it -/
def interpretFor (g : Grammar) : Nat → List Operand → List Item → Except Stop Arguments
  | 0, _, _ => .ok ⟨[], [], []⟩
  | steps + 1, operands, items =>
    if items.any Item.isOption then
      match items with
      | .switch _ s name attached :: rest =>
        match g.switchesOf s name attached with
        | .error e => .error e
        | .ok switches =>
          if helpSwitch ∈ switches then .error .help
          else (g.interpretFor steps operands rest).map fun a => { a with switches := switches ++ a.switches }
      | .unknown word :: rest =>
        (g.interpretFor steps operands rest).map fun a => { a with extras := word :: a.extras }
      | _ =>
        let (values, operands, left) := fill operands items
        if left.length < items.length then
          (g.interpretFor steps operands left).map fun a => { a with values := values ++ a.values }
        else
          let skipped := (items.takeWhile (!·.isOption)).map Item.word
          (g.interpretFor steps operands (items.dropWhile (!·.isOption))).map fun a =>
            { a with extras := skipped ++ a.extras }
    else
      let (values, operands, left) := fill operands items
      match required operands with
      | [] => .ok ⟨[], values, left.map Item.word⟩
      | labels =>
        .error (.fault ("the following arguments are required: ".toList ++ Text.joinWith [',', ' '] labels))

/-- read words; each step of the reading takes at least one of them, and the last step none -/
def read (g : Grammar) (words : List Text) : Except Stop Arguments :=
  match g.readWords words with
  | .error e => .error e
  | .ok items => g.interpretFor (items.length + 1) g.operands items

end Grammar

end UriRouting.CommandLine
