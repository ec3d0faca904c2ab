/-
What is refused, and with which error. A template is refused for what it holds itself: a brace left open, a placeholder without
a name, a name that comes twice, brackets in a constraint, or text that is no regular expression. These errors tell the template
(`Refuses.template`, `Refuses.placeholder`, `Refuses.expression`). Two faults of the expression are told as they are, and not as
errors of the template: flags that exclude each other, and digits that write no number.

The reader does not take up all notation of regular expressions (`Regex.Fault.IsUnread`). An expression with notation of the
other kind is refused like one that is none, which says nothing of that notation (`IsUnread`): it is no reason here.

- `compile_error_iff`: the error of a template, told exactly, where all of its notation is taken up.
- `message_compilation`: an error of the template says which one it is.
- `excludesFlags_iff`: where a source closes only its own parentheses, it is the flags in front of it that exclude each other.
- `compile_closes_braces`: what an accepted template says of its braces.
-/
import UriRouting.Proofs.Regex.Faults
import UriRouting.Proofs.Template.BraceBalance
import UriRouting.Proofs.Pattern.Tolerated

namespace UriRouting.Pattern

open Regex Template Results

variable {config : Config} {t : Text}

/-! ## The error of a template -/

/-- the template has tokens, and they assemble to the source -/
def Expresses (config : Config) (t source : Text) : Prop :=
  ∃ tokens, tokenize t = .ok tokens ∧ assemble config [] tokens = .ok source

/-- the expression of the template is read to its end, where, outside all groups, flags are on that exclude each other -/
def ExcludesFlags (config : Config) (t : Text) : Prop :=
  ∃ source m, Expresses config t source ∧ Machine.start.run (wrap config.trailingSlash source) = .ok m ∧ m.frames = [] ∧
    m.flags.areCompatible = false

/-- reading the expression of the template comes to an element whose digits write no number -/
def MisnumbersIn (config : Config) (t digits : Text) : Prop :=
  ∃ source m r c rest, Expresses config t source ∧
    Machine.Comes .start (wrap config.trailingSlash source) m r ∧ next? m.verbose r = some (c, rest) ∧
    Misnumbers m.verbose c rest digits

/-- reading the expression of the template stops at notation that the reader does not take up -/
def IsUnread (config : Config) (t : Text) : Prop :=
  ∃ source g, Expresses config t source ∧ parse (wrap config.trailingSlash source) = .error g ∧ g.IsUnread

/-- why the template is refused -/
inductive Refuses (config : Config) (t : Text) : Error → Prop
  | template {f : Template.Fault} (h : tokenize t = .error f) : Refuses config t (.compilation t f)
  | placeholder {tokens : List Token} {f : Template.Fault} (htokens : tokenize t = .ok tokens)
    (h : assemble config [] tokens = .error f) : Refuses config t (.compilation t f)
  | expression {source : Text} {g : Regex.Fault} (hsource : Expresses config t source)
    (h : parse (wrap config.trailingSlash source) = .error g) (hg : g.IsSyntactic) (hread : ¬g.IsUnread) :
    Refuses config t (.compilation t .rejected)
  | flags (h : ExcludesFlags config t) : Refuses config t .incompatibleFlags
  | number {digits : Text} (h : MisnumbersIn config t digits) : Refuses config t (.unreadableNumber digits)

theorem expresses_iff {tokens : List Token} {source : Text} (h : tokenize t = .ok tokens) :
    Expresses config t source ↔ assemble config [] tokens = .ok source := by
  simp [Expresses, h]

theorem isUnread_iff {source : Text} (h : Expresses config t source) :
    IsUnread config t ↔ ∃ g, parse (wrap config.trailingSlash source) = .error g ∧ g.IsUnread := by
  obtain ⟨tokens, htokens, hassembled⟩ := h
  simp [IsUnread, expresses_iff htokens, hassembled]

theorem excludesFlags_iff_parse : ExcludesFlags config t ↔
    ∃ source, Expresses config t source ∧ parse (wrap config.trailingSlash source) = .error .incompatibleFlags := by
  simp only [parse_incompatible_iff, ExcludesFlags, exists_and_left]

theorem misnumbersIn_iff_parse {digits : Text} : MisnumbersIn config t digits ↔
    ∃ source, Expresses config t source ∧ parse (wrap config.trailingSlash source) = .error (.unreadableNumber digits) := by
  simp only [parse_unreadable_iff, MisnumbersIn, exists_and_left]

/-- a fault of the notation is told as one of the template -/
theorem compile_of_isSyntactic {source : Text} {g : Regex.Fault} (hsource : Expresses config t source)
    (h : parse (wrap config.trailingSlash source) = .error g) (hg : g.IsSyntactic) :
    compile config t = .error (.compilation t .rejected) := by
  obtain ⟨tokens, htokens, hassembled⟩ := hsource
  cases g with
  | incompatibleFlags => exact hg.elim
  | unreadableNumber digits => exact hg.elim
  | _ => simp only [compile, htokens, hassembled, h]

theorem compile_of_refuses {e : Error} (h : Refuses config t e) : compile config t = .error e := by
  cases h with
  | template htokens => simp only [compile, htokens]
  | placeholder htokens hassembled => simp only [compile, htokens, hassembled]
  | expression hsource hparse hg _ => exact compile_of_isSyntactic hsource hparse hg
  | flags hflags =>
    obtain ⟨source, ⟨tokens, htokens, hassembled⟩, hparse⟩ := excludesFlags_iff_parse.1 hflags
    simp only [compile, htokens, hassembled, hparse]
  | number hnumber =>
    obtain ⟨source, ⟨tokens, htokens, hassembled⟩, hparse⟩ := misnumbersIn_iff_parse.1 hnumber
    simp only [compile, htokens, hassembled, hparse]

/-- a template that fails has a reason, or notation that is not taken up -/
theorem compile_error_cases {e : Error} (h : compile config t = .error e) :
    Refuses config t e ∨ IsUnread config t ∧ e = .compilation t .rejected := by
  unfold compile at h
  split at h
  · rename_i htokens
    exact .inl (Except.error.inj h ▸ .template htokens)
  rename_i tokens htokens
  split at h
  · rename_i hassembled
    exact .inl (Except.error.inj h ▸ .placeholder htokens hassembled)
  rename_i source hassembled
  have hsource : Expresses config t source := ⟨tokens, htokens, hassembled⟩
  simp only at h
  split at h
  · rename_i hparse
    exact .inl (Except.error.inj h ▸ .flags (excludesFlags_iff_parse.2 ⟨source, hsource, hparse⟩))
  · rename_i hparse
    exact .inl (Except.error.inj h ▸ .number (misnumbersIn_iff_parse.2 ⟨source, hsource, hparse⟩))
  · rename_i g hflags hnumber hparse
    by_cases hread : g.IsUnread
    · exact .inr ⟨⟨source, g, hsource, hparse, hread⟩, (Except.error.inj h).symm⟩
    · have hg : g.IsSyntactic := by
        cases g with
        | incompatibleFlags => exact hflags rfl
        | unreadableNumber digits => exact hnumber digits rfl
        | _ => trivial
      exact .inl (Except.error.inj h ▸ .expression hsource hparse hg hread)
  · cases h

/-- **Why a template is refused**: the error is that of the first reason -/
theorem compile_error_iff (hread : ¬IsUnread config t) {e : Error} : compile config t = .error e ↔ Refuses config t e :=
  ⟨fun h => (compile_error_cases h).resolve_right fun hunread => hread hunread.1, compile_of_refuses⟩

/-- the error of a template says which one it is, in front of what it says of the fault -/
theorem message_compilation (t : Text) (f : Template.Fault) :
    (Error.compilation t f).message = "Cannot compile uri pattern ".toList ++ t.quoted ++ (": ".toList ++ f.message) :=
  List.append_assoc ("Cannot compile uri pattern ".toList ++ t.quoted) ": ".toList f.message

/-! ## Flags that exclude each other -/

/-- **The flags in front** are those that count, where the source closes only parentheses of its own: all others end with the
group around it -/
theorem excludesFlags_iff {source : Text} (hsource : Expresses config t source)
    (hcloses : parse source ≠ .error .unbalancedParenthesis) : ExcludesFlags config t ↔
      (leadingFlags source).areCompatible = false ∧
        ∃ n, Machine.start.run source = .ok n ∧ n.frames = [] ∧ ¬EndsInComment source := by
  have hslash : ∀ n : Machine, ∃ k, (grouped (leadingFlags source) n).run (slashTail config.trailingSlash) = .ok k ∧
      k.frames = [] ∧ k.flags = leadingFlags source := by
    intro n
    cases config.trailingSlash with
    | false => exact ⟨_, Machine.run_nil _, rfl, rfl⟩
    | true => exact ⟨_, run_slash _, rfl, rfl⟩
  constructor
  · rintro ⟨source', m, hsource', hm, hframes, hflags⟩
    obtain ⟨tokens, htokens, hassembled⟩ := hsource
    obtain rfl := Except.ok.inj (hassembled.symm.trans ((expresses_iff htokens).1 hsource'))
    obtain ⟨n, hn, hopen, hcomment⟩ := run_of_run_wrap (run_ne_of_parse_ne hcloses) hm hframes
    obtain ⟨k, hk, -, hkflags⟩ := hslash n
    rw [run_wrap_of_run hn hopen hcomment, hk] at hm
    obtain rfl := Except.ok.inj hm
    exact ⟨hkflags ▸ hflags, n, hn, hopen, hcomment⟩
  · rintro ⟨hflags, n, hn, hopen, hcomment⟩
    obtain ⟨k, hk, hframes, hkflags⟩ := hslash n
    exact ⟨source, k, hsource, (run_wrap_of_run hn hopen hcomment _).trans hk, hframes, hkflags ▸ hflags⟩

/-! ## Braces -/

/-- placeholders do not fail for braces -/
theorem assemble_ne_unbalanced {seen : List Text} {tokens : List Token} {n : ℕ} :
    assemble config seen tokens ≠ .error (.unbalanced n) := by
  induction tokens generalizing seen with
  | nil => simp [assemble]
  | cons token tokens ih =>
    cases token with
    | literal text =>
      rw [assemble, Ne, map_eq_error_iff]
      exact ih
    | parameter name constraint =>
      have hbody : ∀ f, body config constraint = .error f → f ≠ .unbalanced n := by
        intro f hf
        cases constraint with
        | none => cases hf
        | some k =>
          rw [body] at hf
          cases hx : expand k with
          | ok x => simp [hx, Except.mapError] at hf
          | error g =>
            simp only [hx, Except.mapError, Except.error.injEq] at hf
            simp [← hf]
      rw [assemble]
      split
      · simp
      · split
        · rename_i f hf
          simpa using hbody f hf
        · rw [Ne, map_eq_error_iff]
          exact ih

/-- **Braces of a template.** One that leaves a brace open is refused, and told with the place of the first that nothing closes,
unless a placeholder in front of it has no name; no template is told so for another reason. One that is accepted closes all its
braces, and they balance just where those of each of its literals do: a closing brace too many is literal text. -/
theorem compile_closes_braces (config : Config) (t : Text) :
    (¬ClosesBraces t → ∃ before rest, LeftOpen t before rest ∧
      (compile config t = .error (.compilation t (.unbalanced before.length)) ∨
        ∃ inner, '{' :: (inner ++ ['}']) <:+: before ∧ compile config t = .error (.compilation t (.unnamed inner)))) ∧
    (∀ n, compile config t = .error (.compilation t (.unbalanced n)) →
      ¬ClosesBraces t ∧ ∃ before rest, LeftOpen t before rest ∧ n = before.length) ∧
    ∀ p, compile config t = .ok p → ClosesBraces t ∧
      (BracesBalance t ↔ ∀ text, .literal text ∈ p.tokens → BracesBalance text) := by
  refine ⟨?_, ?_, ?_⟩
  · intro h
    obtain ⟨before, rest, hopen, hfault | ⟨inner, hinner, hfault⟩⟩ := tokenize_of_not_closes h
    · exact ⟨before, rest, hopen, .inl (compile_of_refuses (.template hfault))⟩
    · exact ⟨before, rest, hopen, .inr ⟨inner, hinner, compile_of_refuses (.template hfault)⟩⟩
  · intro n h
    rcases compile_error_cases h with hrefuses | ⟨-, he⟩
    · cases hrefuses with
      | template hfault =>
        obtain ⟨before, rest, hopen, hn⟩ := leftOpen_of_unbalanced hfault
        exact ⟨hopen.not_closes, before, rest, hopen, hn⟩
      | placeholder _ hfault => exact absurd hfault assemble_ne_unbalanced
    · cases he
  · intro p h
    obtain ⟨tokens, source, program, htokens, -, -, rfl⟩ := compile_eq_ok_iff.1 h
    exact closes_of_tokenize htokens

/-- an escaped brace, quantifiers in a constraint and in the literal behind it, and two braces left open -/
theorem compile_closes_braces_nested :
    let t := "/\\\x7b\x7bid: [0-9]\x7b2\x7d\x7d/x\x7b2\x7d".toList
    let s := "/\x7bid\x7d/\x7ba\x7b2".toList
    ((∃ p, compile .standard t = .ok p) ∧ ClosesBraces t ∧ BracesBalance t) ∧
      ¬ClosesBraces s ∧ ∃ f, compile .standard s = .error (.compilation s f) := by
  intro t s
  obtain ⟨p, hp⟩ := exists_of_isOk (r := compile .standard t) (by decide +kernel)
  obtain ⟨hcloses, hbalance⟩ := (compile_closes_braces .standard t).2.2 p hp
  have htokens : tokenize t = .ok [.literal "/\\\x7b".toList, .parameter "id".toList (some "[0-9]\x7b2\x7d".toList),
      .literal "/x\x7b2\x7d".toList] := by decide +kernel
  have hliterals : ∀ text, .literal text ∈ p.tokens → BracesBalance text := by
    obtain ⟨tokens, source, program, htokens', -, -, rfl⟩ := compile_eq_ok_iff.1 hp
    rw [← Except.ok.inj (htokens.symm.trans htokens')]
    intro text htext
    simp only [List.mem_cons, List.not_mem_nil, or_false, Token.literal.injEq, reduceCtorEq, false_or] at htext
    rcases htext with rfl | rfl <;> decide
  have hopen : ¬ClosesBraces s := by decide
  refine ⟨⟨⟨p, hp⟩, hcloses, hbalance.2 hliterals⟩, hopen, ?_⟩
  obtain ⟨before, rest, -, hfault | ⟨inner, -, hfault⟩⟩ := (compile_closes_braces .standard s).1 hopen
  · exact ⟨_, hfault⟩
  · exact ⟨_, hfault⟩

/-- a closing brace too many behind a placeholder: the template is accepted, and matches what has that brace as well -/
theorem stray_brace_accepted :
    let t := "/\x7bid\x7d\x7d".toList
    (∃ p, compile .standard t = .ok p) ∧ ¬BracesBalance t ∧ answer .standard t "/5".toList = .ok none ∧
      answer .standard t "/5\x7d".toList = .ok (some [("id".toList, ['5'])]) := by
  intro t
  refine ⟨exists_of_isOk (by decide +kernel), by decide, ?_, ?_⟩
  · rw [answer_eq_find?]
    decide +kernel
  · rw [answer_eq_find?]
    decide +kernel

end UriRouting.Pattern
