/-
Reading the source of an expression, one element at a time. Each lemma says what the reading machine becomes when it
stands before a known piece of source, whatever source follows: `run (piece ++ rest)` is `run rest` of the machine with
that piece read. The machine is one on which no flag is on.

`run_text`: text without characters of a meaning of their own is read as these characters.
`run_open`, `run_namedGroup`, `run_leave`: a group is opened and closed.
`run_repeated`: an element, a plus sign or a star, and no suffix: the element, any number of times, as often as possible.
-/
import UriRouting.Proofs.Regex.Sets
import UriRouting.Regex.Parser

namespace UriRouting.Regex

/-- a character that means itself in the source of an expression -/
def isPlain (c : Char) : Bool :=
  !List.contains ['\\', '.', '^', '$', '*', '+', '?', '{', '}', '[', ']', '(', ')', '|'] c

theorem isPlain_iff {c : Char} : isPlain c = true ↔
    c ≠ '\\' ∧ c ≠ '.' ∧ c ≠ '^' ∧ c ≠ '$' ∧ c ≠ '*' ∧ c ≠ '+' ∧ c ≠ '?' ∧ c ≠ '{' ∧ c ≠ '}' ∧ c ≠ '[' ∧ c ≠ ']' ∧
      c ≠ '(' ∧ c ≠ ')' ∧ c ≠ '|' := by
  simp [isPlain]

/-- text that means itself in the source of an expression -/
def IsLiteral (t : Text) : Prop := ∀ c ∈ t, isPlain c = true

instance (t : Text) : Decidable (IsLiteral t) := decidable_of_iff (t.all isPlain = true) List.all_eq_true

def Expr.ofChar (c : Char) : Expr := .char (.literal c.toNat false)

/-- a class of characters, so many times at least, and as often as possible -/
def Expr.run (least : ℕ) (test : CharTest) : Expr := .repeated (.char test) ⟨least, none, false⟩

theorem Expr.references_ofSequence (es : List Expr) : (ofSequence es).references = es.flatMap references := by
  fun_induction ofSequence es with
  | case1 => rfl
  | case2 e => exact (List.append_nil _).symm
  | case3 e f rest ih =>
    rw [references, ih]
    rfl

theorem Expr.references_ofBranches (es : List Expr) : (ofBranches es).references = es.flatMap references := by
  fun_induction ofBranches es with
  | case1 => rfl
  | case2 e => exact (List.append_nil _).symm
  | case3 e f rest ih =>
    rw [references, ih]
    rfl

namespace Sequence

def pushAll (q : Sequence) (es : List Expr) : Sequence := es.foldl push q

@[simp] theorem pushAll_nil (q : Sequence) : q.pushAll [] = q := rfl

@[simp] theorem pushAll_cons (q : Sequence) (e : Expr) (es : List Expr) :
    q.pushAll (e :: es) = (q.push e).pushAll es := rfl

theorem pushAll_append (q : Sequence) (es fs : List Expr) : q.pushAll (es ++ fs) = (q.pushAll es).pushAll fs :=
  List.foldl_append

theorem elements_push (q : Sequence) (e : Expr) : (q.push e).elements = e :: q.elements := rfl

theorem elements_pushAll (q : Sequence) (es : List Expr) : (q.pushAll es).elements = es.reverse ++ q.elements := by
  induction es generalizing q with
  | nil => rfl
  | cons e es ih => rw [pushAll_cons, ih, elements_push, List.reverse_cons, List.append_assoc]; rfl

theorem branches_pushAll (q : Sequence) (es : List Expr) : (q.pushAll es).branches = q.branches := by
  induction es generalizing q with
  | nil => rfl
  | cons e es ih => rw [pushAll_cons, ih]; rfl

/-- what a sequence without branches has read -/
theorem close_of_elements {q : Sequence} {es : List Expr} (hb : q.branches = []) (he : q.elements = es.reverse) :
    q.close = Expr.ofSequence es := by
  simp only [close, nextBranch, hb, he, List.reverse_reverse, List.reverse_cons, List.reverse_nil, List.nil_append,
    Expr.ofBranches]

end Sequence

namespace Machine

def pushAll (m : Machine) (es : List Expr) : Machine := { m with sequence := m.sequence.pushAll es }

def pushSettled (m : Machine) (e : Expr) : Machine :=
  { m with sequence := { m.sequence with settled := e :: m.sequence.elements, last := none } }

@[simp] theorem pushAll_nil (m : Machine) : m.pushAll [] = m := rfl

@[simp] theorem pushAll_cons (m : Machine) (e : Expr) (es : List Expr) :
    m.pushAll (e :: es) = (m.push e).pushAll es := rfl

theorem pushAll_append (m : Machine) (es fs : List Expr) : m.pushAll (es ++ fs) = (m.pushAll es).pushAll fs := by
  simp only [pushAll, Sequence.pushAll_append]

@[simp] theorem flags_push (m : Machine) (e : Expr) : (m.push e).flags = m.flags := rfl

variable {m n : Machine} {s rest : Text}

theorem verbose_of_flags (hf : m.flags = []) : m.verbose = false := by
  rw [verbose, hf]
  rfl

/-- one step of a run -/
theorem run_of_step {c : Char} (hf : m.flags = []) (h : m.step c s = .ok (n, rest)) (hl : rest.length ≤ s.length) :
    m.run (c :: s) = n.run rest := by
  have hlt : rest.length < (c :: s).length := Nat.lt_succ_of_le hl
  rw [run, verbose_of_flags hf]
  simp only [next?_false_cons, h, hlt, if_true]

theorem run_nil (m : Machine) : m.run [] = .ok m := by
  rw [run, next?_nil]

/-! ## Characters and sets -/

/-- a character that means itself -/
theorem step_char {c : Char} (h : c ∉ ['|', ')', '(', '\\', '.', '[', '^', '$', '?', '*', '+', '{']) (s : Text) :
    m.step c s = .ok (m.pushChar c.toNat, s) := by
  unfold step
  split <;> first | rfl | exact absurd (by decide) h

theorem step_plain {c : Char} (hf : m.flags = []) (hc : isPlain c = true) (s : Text) :
    m.step c s = .ok (m.push (.ofChar c), s) := by
  have hsign : c ∉ ['|', ')', '(', '\\', '.', '[', '^', '$', '?', '*', '+', '{'] := by
    simp [isPlain_iff.1 hc]
  have hpush : m.pushChar c.toNat = m.push (.ofChar c) := by
    rw [pushChar, hf]
    rfl
  rw [step_char hsign, hpush]

/-- **Plain text is read as its characters** -/
theorem run_text {t : Text} (hf : m.flags = []) (ht : IsLiteral t) (rest : Text) :
    m.run (t ++ rest) = (m.pushAll (t.map .ofChar)).run rest := by
  induction t generalizing m with
  | nil => rfl
  | cons c t ih =>
    have hc := step_plain hf (ht c List.mem_cons_self) (t ++ rest)
    rw [List.cons_append, run_of_step hf hc le_rfl, List.map_cons, pushAll_cons]
    exact ih (by rw [flags_push, hf]) fun d hd => ht d (List.mem_cons_of_mem c hd)

theorem run_set {test : CharTest} (hf : m.flags = []) (h : set false s = .ok (test, [])) (rest : Text) :
    m.run ('[' :: s ++ rest) = (m.push (.char test)).run rest := by
  have hset : set m.flags.caseless (s ++ rest) = .ok (test, rest) := by
    rw [hf]
    exact set_append rest h
  have hstep : m.step '[' (s ++ rest) = .ok (m.push (.char test), rest) := by
    simp only [step, hset, Except.map]
  rw [List.cons_append, run_of_step hf hstep (by simp)]

theorem run_dot (hf : m.flags = []) (rest : Text) :
    m.run ('.' :: rest) = (m.push (.char (.any false))).run rest := by
  have hstep : m.step '.' rest = .ok (m.push (.char (.any false)), rest) := by
    simp only [step, hf]
    rfl
  rw [run_of_step hf hstep le_rfl]

theorem run_digit (hf : m.flags = []) (rest : Text) :
    m.run ('\\' :: 'd' :: rest) = (m.push (.char (.property .decimalDigit false false))).run rest := by
  have hstep : m.step '\\' ('d' :: rest) = .ok (m.push (.char (.property .decimalDigit false false)), rest) := by
    have hescape : escape m.flags.octalWrap m.verbose false ('d' :: rest) =
        .ok (.item (.property .decimalDigit false), rest) := rfl
    rw [step, hescape]
    · simp only [pushEscaped, hf]
      rfl
    · simp
  rw [run_of_step hf hstep (by simp)]

/-! ## Quantifiers -/

/-- a closing parenthesis is no suffix of a quantifier -/
theorem greed_close (s : Text) : greed false (')' :: s) = (.greedy, ')' :: s) := rfl

theorem repeatLast_push (hf : m.flags = []) (test : CharTest) (least : ℕ) (rest : Text) :
    (m.push (.char test)).repeatLast (least, none) (')' :: rest) =
      .ok (m.pushSettled (.run least test), ')' :: rest) := by
  have hv := verbose_of_flags (m := m.push (.char test)) hf
  simp only [repeatLast, hv, greed_close]
  simp [push, Sequence.push, quantify, pushSettled, Expr.run]

/-- **A class of characters under a star or a plus sign** -/
theorem run_repeated {sign : Char} {least : ℕ} (hf : m.flags = []) (test : CharTest)
    (hs : sign = '*' ∧ least = 0 ∨ sign = '+' ∧ least = 1) (rest : Text) :
    (m.push (.char test)).run (sign :: ')' :: rest) = (m.pushSettled (.run least test)).run (')' :: rest) := by
  have hstep : (m.push (.char test)).step sign (')' :: rest) =
      .ok (m.pushSettled (.run least test), ')' :: rest) := by
    rcases hs with ⟨rfl, rfl⟩ | ⟨rfl, rfl⟩
    · exact repeatLast_push hf test 0 rest
    · exact repeatLast_push hf test 1 rest
  exact run_of_step (m := m.push (.char test)) hf hstep le_rfl

/-- **A slash that is there or not**, at the end of the source -/
theorem run_optionalSlash (m : Machine) : m.run "/?".toList =
    .ok (m.pushSettled (.repeated (.char (.literal '/'.toNat m.flags.caseless)) ⟨0, some 1, false⟩)) := by
  let n := m.pushSettled (.repeated (.char (.literal '/'.toNat m.flags.caseless)) ⟨0, some 1, false⟩)
  have hslash : m.step '/' ['?'] = .ok (m.pushChar '/'.toNat, ['?']) := step_char (by decide) _
  have hquery : (m.pushChar '/'.toNat).step '?' [] = .ok (n, []) := by
    have hgreed : greed m.verbose [] = (.greedy, []) := by cases m.verbose <;> rfl
    have hrepeat : (m.pushChar '/'.toNat).step '?' [] = (m.pushChar '/'.toNat).repeatLast (0, some 1) [] := rfl
    rw [hrepeat, repeatLast]
    simp only [pushChar, push, Sequence.push, verbose] at hgreed ⊢
    rw [hgreed]
    rfl
  calc
    m.run ['/', '?'] = (m.pushChar '/'.toNat).run ['?'] := by
      rw [run, next?_of_counts m.verbose (by decide) (by decide)]
      simp only [hslash]
      exact if_pos (by simp)
    _ = n.run [] := by
      rw [run, next?_of_counts _ (by decide) (by decide)]
      simp only [hquery]
      exact if_pos (by simp)
    _ = .ok n := run_nil n

/-! ## Parentheses -/

theorem run_close (m : Machine) (rest : Text) : m.run (')' :: rest) =
    match m.leave with
    | .error f => .error f
    | .ok n => n.run rest := by
  rw [run, next?_of_counts m.verbose (by decide) (by decide)]
  simp only [step]
  cases m.leave with
  | error f => rfl
  | ok n => exact if_pos (Nat.lt_succ_self _)

theorem run_leave {f : Frame} {fs : List Frame} (hm : m.frames = f :: fs) (rest : Text) :
    m.run (')' :: rest) =
      run { m with sequence := f.sequence.push (f.opening.close m.sequence.close), frames := fs, flags := f.flags }
        rest := by
  rw [run_close, leave, hm]

/-- what a parenthesis and a question mark begin, where no letter or sign tells -/
theorem parenthesis_of_flags (h : ∀ c ∈ s.head?, c ∉ ['<', '=', '!', '>', '#', 'P']) :
    m.parenthesis ('?' :: s) = m.flagGroup s := by
  rw [parenthesis]
  all_goals
    rintro rest rfl
    exact h _ rfl (by decide)

/-- a group that captures nothing is opened under any flags -/
theorem run_open (m : Machine) (rest : Text) : m.run ("(?:".toList ++ rest) = (m.enter .plain).run rest := by
  have hnext : ∀ {c : Char}, c = '(' ∨ c = ':' → ∀ s, next? m.verbose (c :: s) = some (c, s) := by
    intro c hc s
    rcases hc with rfl | rfl <;> exact next?_of_counts _ (by decide) (by decide) s
  have hletters : flagLetters m.verbose (':' :: rest) = ([], ':' :: rest) := by
    have hblank : isBlank ':' = false := by decide
    have hno : Flag.ofLetter? ':' = none := by decide
    rw [flagLetters, takeRun]
    cases m.verbose with
    | false => simp [hno]
    | true => simp [takeCounting, hblank, hno]
  have haccept : ∀ c, accept? m.verbose c (':' :: rest) = if c = ':' then some rest else none := by
    intro c
    rw [accept?, hnext (.inr rfl)]
  have hchange : flagChange m.verbose (':' :: rest) = .ok (([], []), ':' :: rest) := by
    rw [flagChange, hletters]
    simp only [haccept]
    rfl
  have hflags : (m.flags.add []).remove [] = m.flags := by simp [Flags.add, Flags.remove]
  have hgroup : m.flagGroup (':' :: rest) = .ok (m.enter .plain, rest) := by
    rw [flagGroup, hchange]
    simp only [haccept, if_true, hflags]
    rfl
  have hstep : m.step '(' ('?' :: ':' :: rest) = .ok (m.enter .plain, rest) := by
    rw [step, parenthesis_of_flags (by simp), hgroup]
  have hlt : rest.length < ('(' :: '?' :: ':' :: rest).length := by
    simp only [List.length_cons]
    omega
  have hsource : "(?:".toList ++ rest = '(' :: '?' :: ':' :: rest := rfl
  rw [hsource, run, hnext (.inl rfl)]
  simp only [hstep, if_pos hlt]

theorem run_namedGroup {name : Text} (hf : m.flags = []) (hn : isGroupName name = true)
    (hc : ∀ c ∈ name, c ≠ ')' ∧ c ≠ '>') (rest : Text) :
    m.run ("(?P<".toList ++ name ++ '>' :: rest) = (m.enterNamed name).run rest := by
  have htest : ∀ c ∈ name, (c != ')' && c != '>') = true := fun c h => by simp [hc c h]
  have hname : groupText false (name ++ '>' :: rest) = (name, '>' :: rest) := by
    simp only [groupText, takeRun, Bool.false_eq_true, if_false]
    rw [List.takeWhile_append_of_pos htest, List.dropWhile_append_of_pos htest]
    simp
  have hstep : m.step '(' ('?' :: 'P' :: '<' :: (name ++ '>' :: rest)) = .ok (m.enterNamed name, rest) := by
    simp only [step, parenthesis, verbose_of_flags hf, next?_false_cons, namedGroup, groupName, hname, hn, if_true]
    simp [accept?, next?_false_cons]
  have hlen : rest.length ≤ ('?' :: 'P' :: '<' :: (name ++ '>' :: rest)).length := by
    simp only [List.length_cons, List.length_append]
    omega
  have h := run_of_step hf hstep hlen
  rw [← h]
  simp

end Machine

end UriRouting.Regex
