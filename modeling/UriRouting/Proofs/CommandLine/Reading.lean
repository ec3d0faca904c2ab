/-
How command lines are read. The name of a command stops the program's own reading: it is an operand, and its operand takes all
that follows. So what stands behind it is read by the command's grammar alone, and a switch in front of it changes nothing but
the switches that are given.

- `run_of_asks`, `run_of_not_asks`: the words behind a command are its arguments, or the line ends without any module.
- `asks_words`: words that no dash starts, or that stand behind a `--`, are the operands they look like.
- `read_lead`: the first operand can be exchanged, and nothing else of the reading changes.
-/
import Mathlib.Data.List.TakeWhile
import UriRouting.CommandLine.Run

namespace UriRouting.CommandLine

/-! ## Words and items -/

/-- a word that no dash starts -/
def IsPlainWord (w : Text) : Prop := w.head? ≠ some '-'

instance (w : Text) : Decidable (IsPlainWord w) := inferInstanceAs (Decidable (_ ≠ _))

theorem IsPlainWord.ne_separator {w : Text} (h : IsPlainWord w) : w ≠ "--".toList := by
  rintro rfl
  exact h rfl

theorem isPlainWord_name (c : Command) : IsPlainWord c.name := by
  cases c <;> decide

namespace Grammar

theorem readWord_plain (g : Grammar) {w : Text} (h : IsPlainWord w) : g.readWord w = .ok (.operand w) := by
  unfold readWord
  split
  · exact absurd rfl h
  · rfl

theorem readWords_cons (g : Grammar) {w : Text} (h : IsPlainWord w) (words : List Text) :
    g.readWords (w :: words) = (g.readWords words).map (.operand w :: ·) := by
  rw [readWords, if_neg h.ne_separator, g.readWord_plain h]

theorem readWords_plain (g : Grammar) {words : List Text} (h : ∀ w ∈ words, IsPlainWord w) :
    g.readWords words = .ok (words.map .operand) := by
  induction words with
  | nil => rfl
  | cons w words ih =>
    rw [readWords_cons g (h w List.mem_cons_self), ih fun v hv => h v (List.mem_cons_of_mem w hv)]
    rfl

theorem readWords_separator (g : Grammar) (words : List Text) :
    g.readWords ("--".toList :: words) = .ok (.separator :: words.map .operand) := by
  rw [readWords, if_pos rfl]

theorem word_of_readOption {g : Grammar} {w : Text} {item : Item} (h : g.readOption w = .ok item) : item.word = w := by
  unfold readOption at h
  dsimp only at h
  split at h
  · obtain rfl := Except.ok.inj h
    rfl
  · split at h
    · obtain rfl := Except.ok.inj h
      rfl
    · obtain rfl := Except.ok.inj h
      split <;> rfl
    · cases h

theorem word_of_readWord {g : Grammar} {w : Text} {item : Item} (h : g.readWord w = .ok item) : item.word = w := by
  unfold readWord at h
  split at h
  · exact word_of_readOption h
  · obtain rfl := Except.ok.inj h
    rfl

/-- what the words are read as still bears the words -/
theorem map_word_of_readWords {g : Grammar} {words : List Text} {items : List Item} (h : g.readWords words = .ok items) :
    items.map Item.word = words := by
  induction words generalizing items with
  | nil =>
    obtain rfl := Except.ok.inj h
    rfl
  | cons w words ih =>
    rw [readWords] at h
    split at h
    · rename_i hw
      obtain rfl := Except.ok.inj h
      rw [List.map_cons, List.map_map, hw]
      exact congrArg _ (List.map_id words)
    · split at h
      · cases h
      · rename_i item hitem
        cases hrest : g.readWords words with
        | error e =>
          rw [hrest] at h
          cases h
        | ok rest =>
          rw [hrest] at h
          obtain rfl := Except.ok.inj h
          rw [List.map_cons, word_of_readWord hitem, ih hrest]

/-- what a reading ends with when the operands are filled so: no operand may be left that needs a word -/
def concluded (filled : List (List Text) × List Operand × List Item) : Except Stop Arguments :=
  match required filled.2.1 with
  | [] => .ok ⟨[], filled.1, filled.2.2.map Item.word⟩
  | labels => .error (.fault ("the following arguments are required: ".toList ++ Text.joinWith [',', ' '] labels))

/-- the last step: no option is left, and the operands take what there is -/
theorem interpretFor_last (g : Grammar) (steps : Nat) (operands : List Operand) {items : List Item}
    (h : items.any Item.isOption = false) : g.interpretFor (steps + 1) operands items = concluded (fill operands items) := by
  unfold interpretFor
  exact if_neg (Bool.eq_false_iff.1 h)

/-- a step at an operand, with options behind it: the operands take what they can -/
theorem interpretFor_operand (g : Grammar) (steps : Nat) (operands : List Operand) {w : Text} {items : List Item}
    (h : items.any Item.isOption = true) (hfill : (fill operands (.operand w :: items)).2.2.length ≤ items.length) :
    g.interpretFor (steps + 1) operands (.operand w :: items) =
      (g.interpretFor steps (fill operands (.operand w :: items)).2.1 (fill operands (.operand w :: items)).2.2).map
        fun a => { a with values := (fill operands (.operand w :: items)).1 ++ a.values } := by
  have hany : (Item.operand w :: items).any Item.isOption = true := h
  exact (if_pos hany).trans (if_pos (Nat.lt_succ_of_le hfill))

end Grammar

/-! ## The words in front of a command, and behind it -/

/-- the name of a command takes all that follows it, unless some word could mean two switches -/
theorem read_command (c : Command) (words : List Text) :
    grammar.read (c.name :: words) = (grammar.readWords words).map fun _ => ⟨[], [c.name :: words], []⟩ := by
  rw [Grammar.read, grammar.readWords_cons (isPlainWord_name c)]
  cases hitems : grammar.readWords words with
  | error e => rfl
  | ok items =>
    have hwords : (Item.operand c.name :: items).map Item.word = c.name :: words := by
      rw [List.map_cons, Grammar.map_word_of_readWords hitems]
      rfl
    have hfill : fill grammar.operands (.operand c.name :: items) = ([c.name :: words], [], []) :=
      congrArg (fun ws => ([ws], [], [])) hwords
    show grammar.interpretFor ((items.length + 1) + 1) grammar.operands (.operand c.name :: items) = _
    cases hoption : items.any Item.isOption with
    | true =>
      rw [Grammar.interpretFor_operand _ _ _ hoption (by simp [hfill]), hfill]
      rfl
    | false =>
      have hnone : (Item.operand c.name :: items).any Item.isOption = false := hoption
      rw [Grammar.interpretFor_last _ _ _ hnone, hfill]
      rfl

/-- the switch for log records in front of a line is read as such, and the rest of the line as it is without it -/
theorem read_verbose (words : List Text) : grammar.read (verboseSwitch.short :: words) =
    (grammar.read words).map fun a => { a with switches := verboseSwitch :: a.switches } := by
  have hword : grammar.readWord verboseSwitch.short = .ok (.switch verboseSwitch.short verboseSwitch verboseSwitch.short none) :=
    rfl
  have hne : verboseSwitch.short ≠ "--".toList := by decide
  rw [Grammar.read, Grammar.readWords, if_neg hne, hword]
  cases hitems : grammar.readWords words with
  | error e => simp only [Grammar.read, hitems]; rfl
  | ok items =>
    have hread : grammar.read words = grammar.interpretFor (items.length + 1) grammar.operands items := by
      rw [Grammar.read, hitems]
    rw [hread]
    rfl

/-- words that can be told apart go to the command, log records shown or not -/
theorem run_of_readWords {words : List Text} {items : List Item} (h : grammar.readWords words = .ok items)
    (modules : List Module) (c : Command) : run modules (c.name :: words) = (false, dispatch modules [] c.name words) ∧
      run modules (verboseSwitch.short :: c.name :: words) = (true, dispatch modules [] c.name words) := by
  have hread : grammar.read (c.name :: words) = .ok ⟨[], [c.name :: words], []⟩ := by
    rw [read_command, h]
    rfl
  refine ⟨?_, ?_⟩
  · simp only [run, hread, List.not_mem_nil, decide_false]
  · simp only [run, read_verbose, hread, Except.map, List.mem_singleton, decide_true]

/-- a word that could mean two switches is a fault before the command has a say -/
theorem run_of_readWords_error {words : List Text} {e : Stop} (h : grammar.readWords words = .error e)
    (modules : List Module) (c : Command) : run modules (c.name :: words) = (false, stopped grammar description e) ∧
      run modules (verboseSwitch.short :: c.name :: words) = (false, stopped grammar description e) := by
  simp only [run, read_verbose, read_command, h, Except.map, and_self]

/-- the words behind a command are its arguments, and none is left over -/
structure Asks (c : Command) (words : List Text) (a : Arguments) : Prop where
  classified : ∃ items, grammar.readWords words = .ok items
  read : c.grammar.read words = .ok a
  extras : a.extras = []

theorem find?_name (c : Command) : commands.find? (·.name = c.name) = some c := by
  cases c <;> rfl

/-- what runs the command, log records shown or not -/
theorem run_of_asks {c : Command} {words : List Text} {a : Arguments} (h : Asks c words a) (modules : List Module) :
    run modules (c.name :: words) = (false, perform modules a c) ∧
      run modules (verboseSwitch.short :: c.name :: words) = (true, perform modules a c) := by
  obtain ⟨items, hitems⟩ := h.classified
  have hdispatch : dispatch modules [] c.name words = perform modules a c := by
    simp only [dispatch, find?_name, h.read, h.extras, List.append_nil]
  rw [← hdispatch]
  exact run_of_readWords hitems modules c

/-- a line whose words are no arguments of the command ends before any module is looked at -/
theorem run_of_not_asks {c : Command} {words : List Text} (h : ∀ a, ¬Asks c words a) :
    ∃ g about stop shown, ∀ modules, run modules (c.name :: words) = (false, stopped g about stop) ∧
      run modules (verboseSwitch.short :: c.name :: words) = (shown, stopped g about stop) := by
  cases hitems : grammar.readWords words with
  | error e => exact ⟨grammar, description, e, false, fun modules => run_of_readWords_error hitems modules c⟩
  | ok items =>
    suffices hdispatch : ∃ g about stop, ∀ modules, dispatch modules [] c.name words = stopped g about stop by
      obtain ⟨g, about, stop, hstop⟩ := hdispatch
      refine ⟨g, about, stop, true, fun modules => ?_⟩
      rw [← hstop modules]
      exact run_of_readWords hitems modules c
    cases hargs : c.grammar.read words with
    | error e => exact ⟨c.grammar, [], e, fun modules => by simp only [dispatch, find?_name, hargs]⟩
    | ok a =>
      cases hextras : a.extras with
      | nil => exact absurd ⟨⟨items, hitems⟩, hargs, hextras⟩ (h a)
      | cons w ws =>
        exact ⟨grammar, description, unrecognized (w :: ws), fun modules => by
          simp only [dispatch, find?_name, hargs, hextras, List.nil_append]⟩

/-! ## Operands -/

theorem fill_cons {o : Operand} {operands : List Operand} {items taken left : List Item}
    (h : o.arity.take? items = some (taken, left)) : fill (o :: operands) items =
      (o.arity.words taken :: (fill operands left).1, (fill operands left).2) := by
  rw [fill, h]

/-- an operand of one word takes that word, and a `--` behind it -/
theorem fill_one {o : Operand} (ho : o.arity = .one) (operands : List Operand) {w : Text} (hw : w ≠ "--".toList)
    (items : List Item) : fill (o :: operands) (.operand w :: items) =
      ((w :: ((items.takeWhile (· = .separator)).map Item.word).erase "--".toList) ::
        (fill operands (items.dropWhile (· = .separator))).1, (fill operands (items.dropWhile (· = .separator))).2) := by
  have htake : o.arity.take? (.operand w :: items) =
      some (.operand w :: items.takeWhile (· = .separator), items.dropWhile (· = .separator)) := by
    rw [ho]
    rfl
  have hwords : o.arity.words (.operand w :: items.takeWhile (· = .separator)) =
      w :: ((items.takeWhile (· = .separator)).map Item.word).erase "--".toList := by
    rw [ho]
    exact List.erase_cons_tail (by simpa [Item.word] using hw)
  rw [fill_cons htake, hwords]

/-- behind a `--` it takes any word -/
theorem fill_one_separator {o : Operand} (ho : o.arity = .one) (operands : List Operand) (w : Text) (words : List Text) :
    fill (o :: operands) (.separator :: (w :: words).map .operand) =
      ([w] :: (fill operands (words.map .operand)).1, (fill operands (words.map .operand)).2) := by
  have htake : o.arity.take? (.separator :: (w :: words).map .operand) =
      some ([.separator, .operand w], words.map .operand) := by
    rw [ho]
    cases words <;> rfl
  have hwords : o.arity.words [.separator, .operand w] = [w] := by
    rw [ho]
    rfl
  rw [fill_cons htake, hwords]

theorem fill_one_words {o : Operand} (ho : o.arity = .one) (operands : List Operand) {w : Text} (hw : w ≠ "--".toList)
    (words : List Text) : fill (o :: operands) ((w :: words).map .operand) =
      ([w] :: (fill operands (words.map .operand)).1, (fill operands (words.map .operand)).2) := by
  rw [List.map_cons, fill_one ho operands hw]
  cases words <;> rfl

theorem fill_many {o : Operand} (ho : o.arity = .many) {words : List Text} (h : "--".toList ∉ words) :
    fill [o] (words.map .operand) = ([words], [], []) := by
  have hall : ∀ item ∈ words.map Item.operand, (!item.isOption) = true := by
    intro item hitem
    obtain ⟨w, -, rfl⟩ := List.mem_map.1 hitem
    rfl
  have htake : o.arity.take? (words.map .operand) = some (words.map .operand, []) := by
    rw [ho]
    exact congrArg some (Prod.ext (List.takeWhile_eq_self_iff.2 hall) (List.dropWhile_eq_nil_iff.2 hall))
  have hwords : o.arity.words (words.map .operand) = words := by
    rw [ho]
    refine (congrArg (List.erase · _) ?_).trans (List.erase_of_not_mem h)
    rw [List.map_map]
    exact List.map_id words
  rw [fill_cons htake, hwords]
  rfl

/-- the words of a command's operands, given one after the other, and how they are divided among these -/
inductive Divides : Command → List Text → List (List Text) → Prop
  | listRoutes (target : Text) : Divides .listRoutes [target] [[target]]
  | matchPath (target method path : Text) : Divides .matchPath [target, method, path] [[target], [method], [path]]
  | renderUrl (target template : Text) (pairs : List Text) :
    Divides .renderUrl (target :: template :: pairs) [[target], [template], pairs]

theorem isOption_map_operand (words : List Text) : (words.map Item.operand).any Item.isOption = false := by
  simp [Item.isOption]

/-- items that are no options are read by filling the operands -/
theorem interpretFor_of_fill (g : Grammar) {steps : Nat} {operands : List Operand} {items : List Item}
    {values : List (List Text)} (hitems : items.any Item.isOption = false) (h : fill operands items = (values, [], [])) :
    g.interpretFor (steps + 1) operands items = .ok ⟨[], values, []⟩ := by
  rw [g.interpretFor_last steps operands hitems, h]
  rfl

/-- **Words that no dash starts are operands** -/
theorem asks_words {c : Command} {words : List Text} {values : List (List Text)} (h : Divides c words values)
    (hplain : ∀ w ∈ words, IsPlainWord w) : Asks c words ⟨[], values, []⟩ := by
  have hne : ∀ w ∈ words, w ≠ "--".toList := fun w hw => (hplain w hw).ne_separator
  have hfill : fill c.operands (words.map .operand) = (values, [], []) := by
    cases h with
    | listRoutes target =>
      simp only [Command.operands]
      rw [fill_one_words rfl _ (hne _ (by simp))]
      rfl
    | matchPath target method path =>
      simp only [Command.operands]
      rw [fill_one_words rfl _ (hne _ (by simp)), fill_one_words rfl _ (hne _ (by simp)), fill_one_words rfl _ (hne _ (by simp))]
      rfl
    | renderUrl target template pairs =>
      have hpairs : "--".toList ∉ pairs := fun hmem => hne _ (List.mem_cons_of_mem _ (List.mem_cons_of_mem _ hmem)) rfl
      simp only [Command.operands]
      rw [fill_one_words rfl _ (hne _ (by simp)), fill_one_words rfl _ (hne _ (by simp)), fill_many rfl hpairs]
  refine ⟨⟨_, grammar.readWords_plain hplain⟩, ?_, rfl⟩
  rw [Grammar.read, c.grammar.readWords_plain hplain]
  exact interpretFor_of_fill _ (isOption_map_operand words) hfill

/-- **Behind a `--` all words are operands**, whatever they start with; a second `--` would be dropped from an operand -/
theorem asks_separator {c : Command} {word : Text} {words : List Text} {values : List (List Text)}
    (h : Divides c (word :: words) values) (hne : "--".toList ∉ words) :
    Asks c ("--".toList :: word :: words) ⟨[], values, []⟩ := by
  have hfill : fill c.operands (.separator :: (word :: words).map .operand) = (values, [], []) := by
    cases h with
    | listRoutes =>
      simp only [Command.operands]
      rw [fill_one_separator rfl]
      rfl
    | matchPath target method path =>
      have hmethod : method ≠ "--".toList := fun h => hne (by simp [h])
      have hpath : path ≠ "--".toList := fun h => hne (by simp [h])
      simp only [Command.operands]
      rw [fill_one_separator rfl, fill_one_words rfl _ hmethod, fill_one_words rfl _ hpath]
      rfl
    | renderUrl target template pairs =>
      have htemplate : template ≠ "--".toList := fun h => hne (by simp [h])
      have hpairs : "--".toList ∉ pairs := fun h => hne (List.mem_cons_of_mem _ h)
      simp only [Command.operands]
      rw [fill_one_separator rfl, fill_one_words rfl _ htemplate, fill_many rfl hpairs]
  refine ⟨⟨_, grammar.readWords_separator _⟩, ?_, rfl⟩
  rw [Grammar.read, c.grammar.readWords_separator]
  exact interpretFor_of_fill _ (isOption_map_operand (word :: words)) hfill

/-! ## The first operand -/

/-- the arguments with the word put in front of those of the first operand -/
def Arguments.aimedAt (w : Text) (a : Arguments) : Arguments := { a with values := (w :: a.wordsAt 0) :: a.values.tail }

theorem extras_aimedAt (w : Text) (a : Arguments) : (a.aimedAt w).extras = a.extras := rfl

theorem wordsAt_aimedAt (w : Text) (a : Arguments) (n : Nat) : (a.aimedAt w).wordsAt (n + 1) = a.wordsAt (n + 1) := by
  rw [Arguments.wordsAt, Arguments.wordsAt, Arguments.aimedAt]
  cases a.values <;> rfl

theorem length_take?_le {a : Arity} {items taken left : List Item} (h : a.take? items = some (taken, left)) :
    left.length ≤ items.length := by
  cases a with
  | one =>
    have hdrop : (items.dropWhile (· = .separator)).length ≤ items.length := (List.dropWhile_sublist _).length_le
    simp only [Arity.take?] at h
    split at h
    · rename_i w rest hrest
      obtain rfl := (Prod.mk.inj (Option.some.inj h)).2
      rw [hrest, List.length_cons] at hdrop
      have hleft : (rest.dropWhile (· = .separator)).length ≤ rest.length := (List.dropWhile_sublist _).length_le
      omega
    · cases h
  | many =>
    obtain rfl := (Prod.mk.inj (Option.some.inj h)).2
    exact (List.dropWhile_sublist _).length_le
  | remainder =>
    simp only [Arity.take?] at h
    split at h
    · obtain rfl := (Prod.mk.inj (Option.some.inj h)).2
      exact Nat.zero_le _
    · cases h

theorem length_fill_le (operands : List Operand) (items : List Item) : (fill operands items).2.2.length ≤ items.length := by
  induction operands generalizing items with
  | nil => exact le_rfl
  | cons o operands ih =>
    cases htake : o.arity.take? items with
    | none => rw [fill, htake]
    | some split =>
      rw [fill_cons htake]
      exact (ih split.2).trans (length_take?_le htake)

theorem concluded_aimedAt (w : Text) (words : List Text) (values : List (List Text)) (left : List Operand × List Item) :
    Grammar.concluded ((w :: words) :: values, left) =
      (Grammar.concluded (words :: values, left)).map (Arguments.aimedAt w) := by
  simp only [Grammar.concluded]
  cases required left.1 <;> rfl

/-- where an operand of one word comes first, what else is read does not depend on that word -/
theorem interpretFor_lead (g : Grammar) (steps : Nat) {o : Operand} (ho : o.arity = .one) (operands : List Operand)
    (items : List Item) : ∃ r : Except Stop Arguments, ∀ w, w ≠ "--".toList →
      g.interpretFor (steps + 1) (o :: operands) (.operand w :: items) = r.map (Arguments.aimedAt w) := by
  let words := ((items.takeWhile (· = .separator)).map Item.word).erase "--".toList
  let filled := fill operands (items.dropWhile (· = .separator))
  have hleft : filled.2.2.length ≤ items.length := (length_fill_le _ _).trans (List.dropWhile_sublist _).length_le
  cases hoption : items.any Item.isOption with
  | true =>
    refine ⟨(g.interpretFor steps filled.2.1 filled.2.2).map fun a => { a with values := (words :: filled.1) ++ a.values },
      ?_⟩
    intro w hw
    have hfill : fill (o :: operands) (.operand w :: items) = ((w :: words) :: filled.1, filled.2) :=
      fill_one ho operands hw items
    rw [g.interpretFor_operand steps (o :: operands) hoption (by rwa [hfill]), hfill]
    cases g.interpretFor steps filled.2.1 filled.2.2 <;> rfl
  | false =>
    refine ⟨Grammar.concluded (words :: filled.1, filled.2), ?_⟩
    intro w hw
    have hnone : (Item.operand w :: items).any Item.isOption = false := hoption
    rw [g.interpretFor_last steps (o :: operands) hnone, fill_one ho operands hw items]
    exact concluded_aimedAt w words filled.1 filled.2

/-- where a command's first operand may stand: at once if no dash starts it, or right behind a `--` -/
inductive Leads : List Text → Text → Prop
  | plain {w : Text} (h : IsPlainWord w) : Leads [] w
  | separator (w : Text) : Leads ["--".toList] w

/-- **The first operand can be exchanged**: whatever follows, the rest of the reading does not depend on it -/
theorem read_lead (c : Command) (front rest : List Text) : ∃ r : Except Stop Arguments, ∀ w, Leads front w →
    c.grammar.read (front ++ w :: rest) = r.map (Arguments.aimedAt w) := by
  obtain ⟨operands, hoperands⟩ : ∃ operands, c.operands = routerOperand :: operands := by
    cases c <;> exact ⟨_, rfl⟩
  cases front with
  | nil =>
    cases hitems : c.grammar.readWords rest with
    | error e =>
      refine ⟨.error e, ?_⟩
      rintro w (⟨hw⟩ | _)
      rw [List.nil_append, Grammar.read, c.grammar.readWords_cons hw, hitems]
      rfl
    | ok items =>
      obtain ⟨r, hr⟩ := interpretFor_lead c.grammar (items.length + 1) (o := routerOperand) rfl operands items
      refine ⟨r, ?_⟩
      rintro w (⟨hw⟩ | _)
      rw [List.nil_append, Grammar.read, c.grammar.readWords_cons hw, hitems, ← hr w hw.ne_separator, ← hoperands]
      rfl
  | cons =>
    refine ⟨Grammar.concluded ([] :: (fill operands (rest.map .operand)).1, (fill operands (rest.map .operand)).2), ?_⟩
    rintro w (_ | _)
    have hnone : (Item.separator :: (w :: rest).map Item.operand).any Item.isOption = false := isOption_map_operand (w :: rest)
    rw [List.singleton_append, Grammar.read, c.grammar.readWords_separator]
    show c.grammar.interpretFor _ c.operands (.separator :: (w :: rest).map .operand) = _
    rw [c.grammar.interpretFor_last _ _ hnone, hoperands, fill_one_separator rfl]
    exact concluded_aimedAt w [] _ _

end UriRouting.CommandLine
