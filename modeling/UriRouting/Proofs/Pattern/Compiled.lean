/-
What a simple template compiles to. Its expression is read as the characters of the literals and, for each placeholder, a
named group around one class of characters under a star or a plus sign (`elements`); behind them stands perhaps a slash
that is there or not (`root`).

Results:
- `run_assemble`: reading the assembled source adds just these elements, and numbers the groups in order.
- `parse_wrap`, `program_of_compile`: the program of a simple template that compiles.
-/
import UriRouting.Proofs.Results
import UriRouting.Proofs.Pattern.Groups
import UriRouting.Proofs.Template.Dangling
import UriRouting.Proofs.Template.Readings

namespace UriRouting.Pattern

open Regex Template Results

/-! ## Sources of slots -/

theorem class?_cases {k : Text} {test : CharTest} (h : class? k = some test) :
    (expand k = .ok ['.'] ∧ test = .any false) ∨
    (expand k = .ok ['\\', 'd'] ∧ test = .property .decimalDigit false false) ∨
    ∃ s, expand k = .ok ('[' :: s) ∧ set false s = .ok (test, []) := by
  unfold class? at h
  split at h
  · rename_i hx
    exact .inl ⟨hx, (Option.some.inj h).symm⟩
  · rename_i hx
    exact .inr (.inl ⟨hx, (Option.some.inj h).symm⟩)
  · rename_i s hx
    split at h
    · rename_i test' hs
      exact .inr (.inr ⟨s, hx, by rw [hs, Option.some.inj h]⟩)
    · simp at h
  · simp at h

/-- a constraint that means a class expands to the source of the class, and no backslash ends that -/
theorem expand_of_class? {k : Text} {test : CharTest} (h : class? k = some test) :
    ∃ x, expand k = .ok x ∧ x.getLast? ≠ some '\\' ∧
      ∀ {m : Machine}, m.flags = [] → ∀ rest, m.run (x ++ rest) = (m.push (.char test)).run rest := by
  rcases class?_cases h with ⟨hx, rfl⟩ | ⟨hx, rfl⟩ | ⟨s, hx, hs⟩
  · exact ⟨_, hx, by decide, fun hf rest => Machine.run_dot hf rest⟩
  · exact ⟨_, hx, by decide, fun hf rest => Machine.run_digit hf rest⟩
  · refine ⟨_, hx, ?_, fun hf rest => Machine.run_set hf hs rest⟩
    obtain ⟨front, rfl⟩ := suffix_of_set hs
    rw [← List.cons_append, List.getLast?_append]
    simp

/-- **The source of a slot is read as a run of its class** -/
theorem run_body {config : Config} (hbare : config.bareConstraint = Config.standard.bareConstraint)
    {constraint : Option Text} {s : Slot} {b : Text} (hs : slot? constraint = some s)
    (hb : body config constraint = .ok b) {m : Machine} (hf : m.flags = []) (rest : Text) :
    m.run (b ++ ')' :: rest) = (m.pushSettled (.run s.least s.test)).run (')' :: rest) := by
  cases constraint with
  | none =>
    obtain rfl := Option.some.inj hs
    have hset : set false "^/]".toList = .ok (Slot.bare.test, []) := by cbv
    obtain rfl : "[^/]+".toList = b := by
      rw [body, hbare] at hb
      exact Except.ok.inj hb
    have hread := Machine.run_set hf hset ('+' :: ')' :: rest)
    exact hread.trans (Machine.run_repeated hf _ (.inr ⟨rfl, rfl⟩) rest)
  | some k =>
    -- the sign behind the class, and what it asks for
    obtain ⟨q, least, test, hq, hk, hclass, rfl⟩ : ∃ q least test, (q = '*' ∧ least = 0 ∨ q = '+' ∧ least = 1) ∧
        k.getLast? = some q ∧ class? k.dropLast = some test ∧ s = ⟨least, test⟩ := by
      simp only [slot?] at hs
      split at hs
      · rename_i hk
        obtain ⟨test, hclass, rfl⟩ := Option.map_eq_some_iff.1 hs
        exact ⟨'*', 0, test, .inl ⟨rfl, rfl⟩, hk, hclass, rfl⟩
      · rename_i hk
        obtain ⟨test, hclass, rfl⟩ := Option.map_eq_some_iff.1 hs
        exact ⟨'+', 1, test, .inr ⟨rfl, rfl⟩, hk, hclass, rfl⟩
      · simp at hs
    obtain ⟨x, hx, hlast, hread⟩ := expand_of_class? hclass
    have hsign : IsSign q := by rcases hq with ⟨rfl, -⟩ | ⟨rfl, -⟩ <;> simp [IsSign]
    have hexpand : expand k = .ok (x ++ [q]) := by
      have := expand_append_sign hsign hx hlast
      rwa [List.dropLast_append_getLast? q hk] at this
    rw [body, hexpand] at hb
    obtain rfl : x ++ [q] = b := Except.ok.inj hb
    rw [List.append_assoc, hread hf]
    exact Machine.run_repeated hf test hq rest

/-! ## The assembled source -/

/-- what the tokens are read as, behind so many placeholders -/
def elements : ℕ → List Token → List Expr
  | _, [] => []
  | n, .literal t :: tokens => t.map Expr.ofChar ++ elements n tokens
  | n, .parameter _ constraint :: tokens =>
    (slot? constraint).toList.map (fun s => .group (n + 1) (.run s.least s.test)) ++ elements (n + 1) tokens

/-- a machine that has opened the groups of so many placeholders, and no others -/
def opened (m : Machine) (n : ℕ) : Machine := { m with groups := n, names := groups n }

theorem run_group {m : Machine} {e : Expr} {b : Text} (n : ℕ) (hf : m.flags = [])
    (hb : ∀ {m : Machine}, m.flags = [] → ∀ rest, m.run (b ++ ')' :: rest) = (m.pushSettled e).run (')' :: rest))
    (rest : Text) : (opened m n).run (group n b ++ rest) = (opened (m.push (.group (n + 1) e)) (n + 1)).run rest := by
  have hsource : group n b ++ rest = "(?P<".toList ++ groupName n ++ '>' :: (b ++ ')' :: rest) := by
    simp only [group, List.append_assoc, List.cons_append, List.nil_append]
  have hnew : (opened m n).enterNamed (groupName n) = opened (m.enter (.capture (n + 1))) (n + 1) := by
    have hlookup : (opened m n).names.lookup (groupName n) = none :=
      lookup_groups.trans (if_neg (Nat.lt_irrefl n))
    simp only [Machine.enterNamed, hlookup]
    simp only [opened, Machine.enter, groups_succ]
  have hclose : ((opened (m.enter (.capture (n + 1))) (n + 1)).pushSettled e).sequence.close = e :=
    @Sequence.close_of_elements _ [e] rfl rfl
  have hframes : ((opened (m.enter (.capture (n + 1))) (n + 1)).pushSettled e).frames =
      ⟨.capture (n + 1), m.flags, m.sequence⟩ :: m.frames := rfl
  calc
    (opened m n).run (group n b ++ rest) = ((opened m n).enterNamed (groupName n)).run (b ++ ')' :: rest) := by
      rw [hsource, Machine.run_namedGroup (m := opened m n) hf (isGroupName_groupName n) groupName_closes]
    _ = ((opened (m.enter (.capture (n + 1))) (n + 1)).pushSettled e).run (')' :: rest) := by
      rw [hnew, hb (m := opened (m.enter (.capture (n + 1))) (n + 1)) hf]
    _ = (opened (m.push (.group (n + 1) e)) (n + 1)).run rest := by
      rw [Machine.run_leave (m := (opened (m.enter (.capture (n + 1))) (n + 1)).pushSettled e) hframes, hclose]
      rfl

/-- **The assembled source of simple tokens is read as their elements** -/
theorem run_assemble {config : Config} (hbare : config.bareConstraint = Config.standard.bareConstraint)
    {tokens : List Token} (hsimple : ∀ t ∈ tokens, t.IsSimple) {seen : List Text} {source : Text}
    (hsource : assemble config seen tokens = .ok source) {m : Machine} (hf : m.flags = []) (rest : Text) :
    (opened m seen.length).run (source ++ rest) =
      (opened (m.pushAll (elements seen.length tokens)) (seen.length + (Template.names tokens).length)).run rest := by
  induction tokens generalizing seen source m with
  | nil =>
    obtain rfl : [] = source := Except.ok.inj hsource
    rfl
  | cons token tokens ih =>
    obtain ⟨htoken, htokens⟩ := List.forall_mem_cons.1 hsimple
    cases token with
    | literal t =>
      obtain ⟨more, hmore, rfl⟩ := map_eq_ok_iff.1 hsource
      have hread := Machine.run_text (m := opened m seen.length) hf htoken (more ++ rest)
      rw [List.append_assoc, hread, elements, Machine.pushAll_append]
      exact ih htokens hmore (m := m.pushAll (t.map Expr.ofChar)) hf
    | parameter name constraint =>
      obtain ⟨s, hs⟩ := Option.isSome_iff_exists.1 htoken
      unfold assemble at hsource
      split at hsource
      · simp at hsource
      · split at hsource
        · simp at hsource
        · rename_i b hb
          obtain ⟨more, hmore, rfl⟩ := map_eq_ok_iff.1 hsource
          have hread := run_group (m := m) (e := .run s.least s.test) (b := b) seen.length hf
            (fun hf rest => run_body hbare hs hb hf rest) (more ++ rest)
          have hlength : (seen ++ [name]).length = seen.length + 1 := List.length_append
          have hrest := ih htokens hmore (m := m.push (.group (seen.length + 1) (.run s.least s.test))) hf
          rw [hlength] at hrest
          rw [List.append_assoc, hread, hrest, elements, hs]
          simp only [Template.names, List.filterMap_cons, Token.name?, List.length_cons, Option.toList_some, List.map_cons,
            List.map_nil, List.cons_append, List.nil_append, Machine.pushAll_cons]
          congr 2
          omega

/-! ## The compiled template -/

/-- a slash that is there or not -/
def toleratedSlash : Expr := .repeated (.ofChar '/') ⟨0, some 1, false⟩

def root (trailingSlash : Bool) (tokens : List Token) : Expr :=
  if trailingSlash then .cat (.ofSequence (elements 0 tokens)) toleratedSlash else .ofSequence (elements 0 tokens)

def simpleProgram (trailingSlash : Bool) (tokens : List Token) : Program :=
  ⟨root trailingSlash tokens, (Template.names tokens).length, groups (Template.names tokens).length, false⟩

theorem run_toleratedSlash {m : Machine} (hf : m.flags = []) :
    m.run "/?".toList = .ok (m.pushSettled toleratedSlash) := by
  rw [Machine.run_optionalSlash, hf]
  rfl

/-- no simple template starts with a flag group -/
theorem splitFlags_assemble {config : Config} {tokens : List Token} (hsimple : ∀ t ∈ tokens, t.IsSimple)
    {seen : List Text} {source : Text} (hsource : assemble config seen tokens = .ok source) :
    splitFlags source = ([], source) := by
  induction tokens generalizing source with
  | nil =>
    obtain rfl : [] = source := Except.ok.inj hsource
    rfl
  | cons token tokens ih =>
    obtain ⟨htoken, htokens⟩ := List.forall_mem_cons.1 hsimple
    cases token with
    | literal t =>
      obtain ⟨more, hmore, rfl⟩ := map_eq_ok_iff.1 hsource
      cases t with
      | nil => exact ih htokens hmore
      | cons c t =>
        have hc : c ≠ '(' := by
          rintro rfl
          exact absurd (htoken '(' List.mem_cons_self) (by decide)
        rw [splitFlags]
        exact fun rest h => hc (List.cons.inj h).1
    | parameter name constraint =>
      unfold assemble at hsource
      split at hsource
      · simp at hsource
      · split at hsource
        · simp at hsource
        · obtain ⟨more, -, rfl⟩ := map_eq_ok_iff.1 hsource
          rfl

theorem references_of_mem_elements {n : ℕ} {tokens : List Token} {e : Expr} (h : e ∈ elements n tokens) :
    e.references = [] := by
  induction tokens generalizing n with
  | nil => simp [elements] at h
  | cons token tokens ih =>
    cases token with
    | literal t =>
      rcases List.mem_append.1 h with h | h
      · obtain ⟨c, -, rfl⟩ := List.mem_map.1 h
        rfl
      · exact ih h
    | parameter name constraint =>
      rcases List.mem_append.1 h with h | h
      · obtain ⟨s, -, rfl⟩ := List.mem_map.1 h
        rfl
      · exact ih h

theorem references_root (trailingSlash : Bool) (tokens : List Token) : (root trailingSlash tokens).references = [] := by
  have h : (Expr.ofSequence (elements 0 tokens)).references = [] := by
    rw [Expr.references_ofSequence, List.flatMap_eq_nil_iff]
    intro e he
    exact references_of_mem_elements he
  unfold root
  split
  · rw [Expr.references, h]
    rfl
  · exact h

/-- **The wrapped source of a simple template is read as its expression** -/
theorem parse_wrap {config : Config} (hbare : config.bareConstraint = Config.standard.bareConstraint)
    {tokens : List Token} (hsimple : ∀ t ∈ tokens, t.IsSimple) {source : Text}
    (hsource : assemble config [] tokens = .ok source) :
    parse (wrap config.trailingSlash source) = .ok (simpleProgram config.trailingSlash tokens) := by
  let inner := Expr.ofSequence (elements 0 tokens)
  let k := (Template.names tokens).length
  let tail := if config.trailingSlash then "/?".toList else []
  have hwrap : wrap config.trailingSlash source = "(?:".toList ++ (source ++ ')' :: tail) := by
    simp only [wrap, splitFlags_assemble hsimple hsource, List.nil_append, List.append_assoc, tail]
  -- the group around the whole
  have hgroup : Machine.start.run (wrap config.trailingSlash source) =
      (opened (Machine.start.push inner) k).run tail := by
    have hbody := run_assemble hbare hsimple hsource (m := Machine.start.enter .plain) rfl (')' :: tail)
    have hclose : ((Machine.start.enter .plain).pushAll (elements 0 tokens)).sequence.close = inner := by
      refine Sequence.close_of_elements (Sequence.branches_pushAll _ _) ?_
      rw [Machine.pushAll, Sequence.elements_pushAll]
      exact List.append_nil _
    have hframes : (opened ((Machine.start.enter .plain).pushAll (elements 0 tokens)) k).frames =
        [⟨.plain, [], .start⟩] := rfl
    calc
      Machine.start.run (wrap config.trailingSlash source) =
          (opened (Machine.start.enter .plain) 0).run (source ++ ')' :: tail) := by
        rw [hwrap, Machine.run_open]
        rfl
      _ = (opened ((Machine.start.enter .plain).pushAll (elements 0 tokens)) k).run (')' :: tail) := by
        rw [List.length_nil, Nat.zero_add] at hbody
        exact hbody
      _ = (opened (Machine.start.push inner) k).run tail := by
        rw [Machine.run_leave hframes]
        simp only [opened, hclose]
        rfl
  have hfinish : ∀ m : Machine, m.frames = [] → m.flags = [] → m.sequence.close = root config.trailingSlash tokens →
      (opened m k).finish = .ok (simpleProgram config.trailingSlash tokens) := by
    intro m hframes hflags hroot
    simp only [Machine.finish, opened, hframes, hflags, hroot, references_root]
    rfl
  rw [parse, hgroup]
  by_cases hslash : config.trailingSlash = true
  · have htail : tail = "/?".toList := if_pos hslash
    rw [htail, run_toleratedSlash (m := opened (Machine.start.push inner) k) rfl]
    refine hfinish ((Machine.start.push inner).pushSettled toleratedSlash) rfl rfl ?_
    rw [root, if_pos hslash]
    rfl
  · have htail : tail = [] := if_neg hslash
    rw [htail, Machine.run_nil]
    refine hfinish (Machine.start.push inner) rfl rfl ?_
    rw [root, if_neg hslash]
    rfl

/-- what a template that compiles consists of -/
theorem compile_eq_ok_iff {config : Config} {template : Text} {p : Pattern} : compile config template = .ok p ↔
    ∃ tokens source program, tokenize template = .ok tokens ∧ assemble config [] tokens = .ok source ∧
      parse (wrap config.trailingSlash source) = .ok program ∧
      p = ⟨template, wrap config.trailingSlash source, program, Template.names tokens, tokens⟩ := by
  refine ⟨?_, ?_⟩
  · intro h
    unfold compile at h
    split at h
    · cases h
    · rename_i tokens htokens
      split at h
      · cases h
      · rename_i source hsource
        simp only at h
        split at h
        · cases h
        · cases h
        · cases h
        · rename_i program hprogram
          exact ⟨tokens, source, program, htokens, hsource, hprogram, (Except.ok.inj h).symm⟩
  · intro h
    obtain ⟨tokens, source, program, htokens, hsource, hprogram, rfl⟩ := h
    simp only [compile, htokens, hsource, hprogram]

/-- a template that has tokens is accepted when their expression is assembled and is one -/
theorem exists_compile_iff {config : Config} {template : Text} {tokens : List Token} (h : tokenize template = .ok tokens) :
    (∃ p, compile config template = .ok p) ↔ ∃ source program, assemble config [] tokens = .ok source ∧
      parse (wrap config.trailingSlash source) = .ok program := by
  simp only [compile_eq_ok_iff, h, Except.ok.injEq]
  constructor
  · rintro ⟨p, tokens', source, program, rfl, hsource, hprogram, -⟩
    exact ⟨source, program, hsource, hprogram⟩
  · rintro ⟨source, program, hsource, hprogram⟩
    exact ⟨_, tokens, source, program, rfl, hsource, hprogram, rfl⟩

/-- **Templates with one assembled expression** are accepted alike and come to one program, each with its own names -/
theorem compile_of_assemble_eq {c d : Config} {s t : Text} {ss ts : List Token} (hs : tokenize s = .ok ss)
    (ht : tokenize t = .ok ts) (h : assemble c [] ss = assemble d [] ts) (hslash : c.trailingSlash = d.trailingSlash) :
    ((∃ p, compile c s = .ok p) ↔ ∃ q, compile d t = .ok q) ∧
    ∀ p q, compile c s = .ok p → compile d t = .ok q → p.expression = q.expression ∧ p.program = q.program ∧
      p.names = Template.names ss ∧ q.names = Template.names ts := by
  refine ⟨by rw [exists_compile_iff hs, exists_compile_iff ht, h, hslash], fun p q hp hq => ?_⟩
  obtain ⟨ss', source, program, hss', hsource, hprogram, rfl⟩ := compile_eq_ok_iff.1 hp
  obtain ⟨ts', source', program', hts', hsource', hprogram', rfl⟩ := compile_eq_ok_iff.1 hq
  obtain rfl := Except.ok.inj (hs.symm.trans hss')
  obtain rfl := Except.ok.inj (ht.symm.trans hts')
  obtain rfl : source = source' := Except.ok.inj (hsource.symm.trans (h.trans hsource'))
  rw [hslash] at hprogram ⊢
  exact ⟨rfl, Except.ok.inj (hprogram.symm.trans hprogram'), rfl, rfl⟩

theorem body_some_ok_iff {config : Config} {k b : Text} : body config (some k) = .ok b ↔ expand k = .ok b := by
  rw [body]
  cases expand k <;> simp [Except.mapError]

/-- what a placeholder adds to what is assembled -/
theorem assemble_parameter_ok {config : Config} {seen : List Text} {n : Text} {constraint : Option Text} {tokens : List Token}
    {source : Text} (h : assemble config seen (.parameter n constraint :: tokens) = .ok source) :
    n ∉ seen ∧ ∃ b rest, body config constraint = .ok b ∧ assemble config (seen ++ [n]) tokens = .ok rest ∧
      source = group seen.length b ++ rest := by
  rw [assemble] at h
  split at h
  · cases h
  · rename_i hnew
    split at h
    · cases h
    · rename_i b hb
      obtain ⟨rest, hrest, rfl⟩ := map_eq_ok_iff.1 h
      exact ⟨hnew, b, rest, hb, hrest, rfl⟩

/-- the constraint of every placeholder is expanded in what is assembled -/
theorem exists_body_of_assemble {config : Config} {seen : List Text} {tokens : List Token} {source : Text}
    (h : assemble config seen tokens = .ok source) {n : Text} {constraint : Option Text}
    (hmem : .parameter n constraint ∈ tokens) : ∃ b, body config constraint = .ok b := by
  induction tokens generalizing seen source with
  | nil => cases hmem
  | cons token tokens ih =>
    cases token with
    | literal t =>
      obtain ⟨rest, hrest, -⟩ := map_eq_ok_iff.1 h
      exact ih hrest ((List.mem_cons.1 hmem).resolve_left (by simp))
    | parameter m own =>
      obtain ⟨-, b, rest, hb, hrest, -⟩ := assemble_parameter_ok h
      rcases List.mem_cons.1 hmem with heq | hmem
      · obtain ⟨-, rfl⟩ := Token.parameter.inj heq
        exact ⟨b, hb⟩
      · exact ih hrest hmem

/-- what is assembled has no placeholder of a name seen before -/
theorem nodup_names_of_assemble {config : Config} {seen : List Text} {tokens : List Token} {source : Text}
    (h : assemble config seen tokens = .ok source) :
    (Template.names tokens).Nodup ∧ (Template.names tokens).Disjoint seen := by
  induction tokens generalizing seen source with
  | nil => exact ⟨List.nodup_nil, List.disjoint_nil_left seen⟩
  | cons token tokens ih =>
    cases token with
    | literal t =>
      obtain ⟨rest, hrest, -⟩ := map_eq_ok_iff.1 h
      exact ih hrest
    | parameter name constraint =>
      have hnames : Template.names (.parameter name constraint :: tokens) = name :: Template.names tokens := rfl
      obtain ⟨hnew, -, rest, -, hrest, -⟩ := assemble_parameter_ok h
      obtain ⟨hdistinct, hdisjoint⟩ := ih hrest
      rw [List.disjoint_append_right, List.disjoint_singleton] at hdisjoint
      rw [hnames]
      exact ⟨List.nodup_cons.2 ⟨hdisjoint.2, hdistinct⟩, List.disjoint_cons_left.2 ⟨hnew, hdisjoint.1⟩⟩

theorem names_of_compile {config : Config} {template : Text} {p : Pattern} (h : compile config template = .ok p) :
    p.names = Template.names p.tokens := by
  obtain ⟨tokens, source, program, -, -, -, rfl⟩ := compile_eq_ok_iff.1 h
  rfl

/-- **The placeholders of a template that compiles have different names** -/
theorem nodup_names_of_compile {config : Config} {template : Text} {p : Pattern} (h : compile config template = .ok p) :
    (Template.names p.tokens).Nodup := by
  obtain ⟨tokens, source, program, -, hsource, -, rfl⟩ := compile_eq_ok_iff.1 h
  exact (nodup_names_of_assemble hsource).1

theorem compile_of_simple {config : Config} (hbare : config.bareConstraint = Config.standard.bareConstraint)
    {template : Text} {tokens : List Token} (htokens : tokenize template = .ok tokens)
    (hsimple : ∀ t ∈ tokens, t.IsSimple) {source : Text} (hsource : assemble config [] tokens = .ok source) :
    compile config template = .ok ⟨template, wrap config.trailingSlash source,
      simpleProgram config.trailingSlash tokens, Template.names tokens, tokens⟩ := by
  simp only [compile, htokens, hsource, parse_wrap hbare hsimple hsource]

/-- **A simple template that compiles has the program of its elements** -/
theorem program_of_compile {config : Config} (hbare : config.bareConstraint = Config.standard.bareConstraint)
    {template : Text} {tokens : List Token} (htokens : tokenize template = .ok tokens)
    (hsimple : ∀ t ∈ tokens, t.IsSimple) {p : Pattern} (hp : compile config template = .ok p) :
    p.program = simpleProgram config.trailingSlash tokens ∧ p.names = Template.names tokens ∧ p.tokens = tokens := by
  cases hsource : assemble config [] tokens with
  | error f => simp [compile, htokens, hsource] at hp
  | ok source =>
    rw [compile_of_simple hbare htokens hsimple hsource] at hp
    obtain rfl := Except.ok.inj hp
    exact ⟨rfl, rfl, rfl⟩

/-! ## Settings -/

theorem assemble_congr {c d : Config} {tokens : List Token}
    (h : ∀ name constraint, .parameter name constraint ∈ tokens → body c constraint = body d constraint)
    (seen : List Text) : assemble c seen tokens = assemble d seen tokens := by
  induction tokens generalizing seen with
  | nil => rfl
  | cons token tokens ih =>
    have hrest := ih fun name constraint hmem => h name constraint (List.mem_cons_of_mem _ hmem)
    cases token with
    | literal t => simp only [assemble, hrest]
    | parameter name constraint => simp only [assemble, hrest, h name constraint List.mem_cons_self]

/-- **A template depends on few settings**: the tolerated slash, and what the groups of its placeholders hold -/
theorem compile_congr {c d : Config} {template : Text} (hslash : c.trailingSlash = d.trailingSlash)
    (h : ∀ tokens, tokenize template = .ok tokens → ∀ name constraint, .parameter name constraint ∈ tokens →
      body c constraint = body d constraint) : compile c template = compile d template := by
  unfold compile
  cases htokens : tokenize template with
  | error f => rfl
  | ok tokens => simp only [assemble_congr (h tokens htokens), hslash]

end UriRouting.Pattern
