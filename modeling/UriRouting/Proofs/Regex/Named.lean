/-
The groups of an expression that bear one of some names. Wherever a source gives such a name, the group is read to its end at
once, if what follows the name is the class that leaves slashes out, under a plus sign, and a closing parenthesis; the flags in
force there do not matter. So in the end every group of that number holds this and nothing else.

- `mem_groups_close`: what groups an expression has, by what the machine has read.
- `Guarded`: what the machine keeps with each element (`Guarded.of_moves`, `Guarded.of_leave`) and each such group.
- `guarded_of_run`: what a run keeps.
-/
import UriRouting.Proofs.Regex.Suffixes
import UriRouting.Proofs.Regex.Moves

namespace UriRouting.Regex

open Results

/-! ## Groups -/

/-- the groups within the expression, each with what it holds -/
def Expr.groups : Expr → List (ℕ × Expr)
  | empty | char _ | anchor _ | backref _ _ => []
  | cat a b | alt a b => a.groups ++ b.groups
  | group n e => (n, e) :: e.groups
  | repeated e _ | atomic e | look _ _ e => e.groups

/-- a class that leaves slashes out, at least once and as often as possible -/
def Expr.IsSegment (e : Expr) : Prop := ∃ test : CharTest, e = .run 1 test ∧ ∀ asciiOnly, test.accepts asciiOnly '/' = false

theorem Expr.groups_ofSequence (es : List Expr) : (ofSequence es).groups = es.flatMap groups := by
  fun_induction ofSequence es with
  | case1 => rfl
  | case2 e => exact (List.append_nil _).symm
  | case3 e f rest ih =>
    rw [groups, ih]
    rfl

theorem Expr.groups_ofBranches (es : List Expr) : (ofBranches es).groups = es.flatMap groups := by
  fun_induction ofBranches es with
  | case1 => rfl
  | case2 e => exact (List.append_nil _).symm
  | case3 e f rest ih =>
    rw [groups, ih]
    rfl

theorem Expr.IsLeaf.groups_eq {e : Expr} (h : e.IsLeaf) : e.groups = [] := by
  cases e <;> first | rfl | exact absurd h id

theorem groups_quantify (e : Expr) (limits : Limits) (greed : Greed) : (quantify e limits greed).groups = e.groups := by
  unfold quantify
  split
  · rfl
  · cases greed <;> rfl

/-- an element of the sequence has the group, or one of a finished branch does -/
def Sequence.Holds (q : Sequence) (x : ℕ × Expr) : Prop := ∃ e ∈ q.elements ++ q.branches, x ∈ e.groups

namespace Sequence

variable {q : Sequence} {x : ℕ × Expr}

theorem holds_push {e : Expr} : (q.push e).Holds x ↔ x ∈ e.groups ∨ q.Holds x := by
  simp only [Holds, push, elements, Option.toList_some, List.cons_append, List.nil_append, List.mem_cons, exists_eq_or_imp]

theorem holds_nextBranch : q.nextBranch.Holds x ↔ q.Holds x := by
  simp only [Holds, nextBranch, elements, Option.toList_none, List.nil_append, List.mem_cons, List.mem_append, or_and_right,
    exists_or, exists_eq_left, Expr.groups_ofSequence, List.mem_flatMap, List.mem_reverse]

theorem mem_groups_close : x ∈ q.close.groups ↔ q.Holds x := by
  rw [← holds_nextBranch, close, Expr.groups_ofBranches]
  simp only [Holds, List.mem_flatMap, List.mem_reverse]
  rfl

theorem holds_quantify {e : Expr} {limits : Limits} {greed : Greed} (hlast : q.last = some e) :
    Holds { q with settled := quantify e limits greed :: q.settled, last := none } x ↔ q.Holds x := by
  simp only [Holds, elements, hlast, Option.toList_none, Option.toList_some, List.nil_append, List.cons_append, List.mem_cons,
    exists_eq_or_imp, groups_quantify]

end Sequence

namespace Machine

/-- the machine has read the group -/
def Holds (m : Machine) (x : ℕ × Expr) : Prop := m.sequence.Holds x ∨ ∃ f ∈ m.frames, f.sequence.Holds x

/-- the number is that of a group with one of the names -/
def Bears (m : Machine) (own : Text → Prop) (k : ℕ) : Prop := ∃ name, own name ∧ (name, k) ∈ m.names

/-- what is kept where groups of some names are read to their end at once -/
structure Guarded (own : Text → Prop) (m : Machine) : Prop where
  counted : ∀ x ∈ m.names, x.2 ≤ m.groups
  distinct : ∀ x ∈ m.names, ∀ y ∈ m.names, x.2 = y.2 → x.1 = y.1
  /-- every group read was counted, and one of the names holds a segment -/
  read : ∀ x, m.Holds x → x.1 ≤ m.groups ∧ (m.Bears own x.1 → x.2.IsSegment)
  /-- every group that is open was counted, and bears none of the names -/
  opened : ∀ f ∈ m.frames, ∀ k, f.opening = .capture k → k ≤ m.groups ∧ ¬m.Bears own k

variable {own : Text → Prop} {m n : Machine} {spoken : Option Reference} {named : Option Text}

theorem guarded_start (own : Text → Prop) : Guarded own .start where
  counted := fun x hx => absurd hx List.not_mem_nil
  distinct := fun x hx => absurd hx List.not_mem_nil
  read := by
    rintro x (⟨e, he, -⟩ | ⟨f, hf, -⟩)
    · exact absurd he List.not_mem_nil
    · exact absurd hf List.not_mem_nil
  opened := fun f hf => absurd hf List.not_mem_nil

theorem mem_of_lookup {names : List (Text × ℕ)} {name : Text} {k : ℕ} (h : names.lookup name = some k) :
    (name, k) ∈ names := by
  obtain ⟨front, behind, hsplit, -⟩ := List.lookup_eq_some_iff.1 h
  exact hsplit ▸ by simp

theorem holds_enter {o : Opening} {x : ℕ × Expr} (h : (m.enter o).Holds x) : m.Holds x := by
  rcases h with ⟨e, he, -⟩ | ⟨f, hf, hx⟩
  · exact absurd he List.not_mem_nil
  · rcases List.mem_cons.1 hf with rfl | hf
    · exact .inl hx
    · exact .inr ⟨f, hf, hx⟩

namespace Guarded

/-- where nothing new is read, opened or named -/
theorem of_eq (hm : Guarded own m) (hnames : n.names = m.names) (hgroups : n.groups = m.groups) (hframes : n.frames = m.frames)
    (hread : ∀ x, n.sequence.Holds x → m.Holds x) : Guarded own n where
  counted := by
    rw [hnames, hgroups]
    exact hm.counted
  distinct := hnames ▸ hm.distinct
  read := by
    intro x hx
    have hx' : m.Holds x := hx.elim (hread x) fun h => .inr (hframes ▸ h)
    rw [hgroups, Bears, hnames]
    exact hm.read x hx'
  opened := by
    rw [hframes, hgroups]
    simp only [Bears, hnames]
    exact hm.opened

/-- a parenthesis that opens no group of the names -/
theorem enter (hm : Guarded own m) (o : Opening) (flags : Flags) (ho : ∀ k, o = .capture k → k ≤ m.groups ∧ ¬m.Bears own k) :
    Guarded own { m.enter o with flags } where
  counted := hm.counted
  distinct := hm.distinct
  read := fun x hx => hm.read x (holds_enter hx)
  opened := by
    intro f hf
    rcases List.mem_cons.1 hf with rfl | hf
    · exact ho
    · exact hm.opened f hf

/-- one more group counted, under a name or none -/
theorem grow (hm : Guarded own m) (names : List (Text × ℕ)) (hnames : ∀ x ∈ names, x.2 = m.groups + 1)
    (hone : ∀ x ∈ names, ∀ y ∈ names, x.1 = y.1) :
    Guarded own { m with groups := m.groups + 1, names := m.names ++ names } := by
  have hbears : ∀ k ≤ m.groups, Bears { m with groups := m.groups + 1, names := m.names ++ names } own k → m.Bears own k := by
    rintro k hk ⟨name, hname, hmem⟩
    rcases List.mem_append.1 hmem with hmem | hmem
    · exact ⟨name, hname, hmem⟩
    · have := hnames _ hmem
      simp only at this
      omega
  refine ⟨?_, ?_, ?_, ?_⟩
  · intro x hx
    rcases List.mem_append.1 hx with hx | hx
    · exact Nat.le_succ_of_le (hm.counted x hx)
    · exact (hnames x hx).le
  · intro x hx y hy hxy
    rcases List.mem_append.1 hx with hx | hx <;> rcases List.mem_append.1 hy with hy | hy
    · exact hm.distinct x hx y hy hxy
    · have hle := hm.counted x hx
      rw [hxy, hnames y hy] at hle
      omega
    · have hle := hm.counted y hy
      rw [← hxy, hnames x hx] at hle
      omega
    · exact hone x hx y hy
  · intro x hx
    obtain ⟨hle, hown⟩ := hm.read x hx
    exact ⟨Nat.le_succ_of_le hle, fun hb => hown (hbears x.1 hle hb)⟩
  · intro f hf k hk
    obtain ⟨hle, hown⟩ := hm.opened f hf k hk
    exact ⟨Nat.le_succ_of_le hle, fun hb => hown (hbears k hle hb)⟩

theorem not_bears_next (hm : Guarded own m) : ¬m.Bears own (m.groups + 1) := by
  rintro ⟨name, -, hmem⟩
  have hle := hm.counted _ hmem
  simp only at hle
  omega

theorem enterGroup (hm : Guarded own m) : Guarded own m.enterGroup := by
  have hgrown := hm.grow [] (by simp) (by simp)
  rw [List.append_nil] at hgrown
  refine hgrown.enter (.capture (m.groups + 1)) m.flags fun k hk => ?_
  obtain rfl := Opening.capture.inj hk
  exact ⟨le_rfl, hm.not_bears_next⟩

/-- a group under a name that is none of them -/
theorem enterNamed (hm : Guarded own m) {name : Text} (hname : ¬own name) : Guarded own (m.enterNamed name) := by
  unfold Machine.enterNamed
  split
  · rename_i k hlookup
    have hmem := mem_of_lookup hlookup
    refine hm.enter (.capture k) m.flags fun j hj => ?_
    obtain rfl := Opening.capture.inj hj
    refine ⟨hm.counted _ hmem, ?_⟩
    rintro ⟨other, hother, hmem'⟩
    obtain rfl : other = name := hm.distinct _ hmem' _ hmem rfl
    exact hname hother
  · have hgrown := hm.grow [(name, m.groups + 1)] (by simp) (by simp)
    refine hgrown.enter (.capture (m.groups + 1)) m.flags fun k hk => ?_
    obtain rfl := Opening.capture.inj hk
    refine ⟨le_rfl, ?_⟩
    rintro ⟨other, hother, hmem⟩
    rcases List.mem_append.1 hmem with hmem | hmem
    · exact hm.not_bears_next ⟨other, hother, hmem⟩
    · exact hname ((Prod.mk.inj (List.mem_singleton.1 hmem)).1 ▸ hother)

/-- **What every element but a closing parenthesis keeps**, if it gives none of the names -/
theorem of_moves (hm : Guarded own m) (h : Moves m spoken named n)
    (hnamed : ∀ source ∈ named, ¬own (groupText m.verbose source).1) : Guarded own n := by
  cases h with
  | push e hleaf _ =>
    refine hm.of_eq rfl rfl rfl fun x hx => ?_
    rcases Sequence.holds_push.1 hx with hx | hx
    · rw [hleaf.groups_eq] at hx
      exact absurd hx List.not_mem_nil
    · exact .inl hx
  | nextBranch => exact hm.of_eq rfl rfl rfl fun x hx => .inl (Sequence.holds_nextBranch.1 hx)
  | quantify limits greed hlast => exact hm.of_eq rfl rfl rfl fun x hx => .inl ((Sequence.holds_quantify hlast).1 hx)
  | setFlags flags => exact hm.of_eq rfl rfl rfl fun x hx => .inl hx
  | enter o flags ho => exact hm.enter o flags fun k hk => absurd hk (ho k)
  | enterGroup => exact hm.enterGroup
  | enterNamed hsource => exact hm.enterNamed (hnamed _ hsource)

/-- **What a closing parenthesis keeps** -/
theorem of_leave (hm : Guarded own m) (h : m.leave = .ok n) : Guarded own n := by
  obtain ⟨f, hframes, hn⟩ := leave_eq_ok h
  have hf : f ∈ m.frames := hframes ▸ List.mem_cons_self
  have hrest : ∀ g ∈ n.frames, g ∈ m.frames := fun g hg => hframes ▸ List.mem_cons_of_mem f hg
  have hbears : ∀ k, n.Bears own k ↔ m.Bears own k := fun k => by rw [hn, Bears, Bears]
  have hgroups : n.groups = m.groups := by rw [hn]
  refine ⟨by rw [hn]; exact hm.counted, by rw [hn]; exact hm.distinct, ?_, ?_⟩
  · intro x hx
    rw [hgroups, hbears]
    rcases hx with hx | ⟨g, hg, hx⟩
    · rw [hn] at hx
      rcases Sequence.holds_push.1 hx with hx | hx
      · -- the group that is closed bears none of the names
        have hinner : x ∈ m.sequence.close.groups → x.1 ≤ m.groups ∧ (m.Bears own x.1 → x.2.IsSegment) :=
          fun hx => hm.read x (.inl (Sequence.mem_groups_close.1 hx))
        cases hopening : f.opening with
        | capture k =>
          rw [hopening] at hx
          rcases List.mem_cons.1 hx with rfl | hx
          · obtain ⟨hle, hnot⟩ := hm.opened f hf k hopening
            exact ⟨hle, fun hb => absurd hb hnot⟩
          · exact hinner hx
        | plain =>
          rw [hopening] at hx
          exact hinner hx
        | atomic =>
          rw [hopening] at hx
          exact hinner hx
        | look behind negated =>
          rw [hopening] at hx
          exact hinner hx
      · exact hm.read x (.inr ⟨f, hf, hx⟩)
    · exact hm.read x (.inr ⟨g, hrest g hg, hx⟩)
  · intro g hg k hk
    rw [hgroups, hbears]
    exact hm.opened g (hrest g hg) k hk

theorem push_segment (hm : Guarded own m) {k : ℕ} {e : Expr} (hk : k ≤ m.groups) (he : e.IsSegment) :
    Guarded own (m.push (.group k e)) where
  counted := hm.counted
  distinct := hm.distinct
  read := by
    have hgroups : e.groups = [] := by
      obtain ⟨test, rfl, -⟩ := he
      rfl
    rintro x (hx | hx)
    · rcases Sequence.holds_push.1 hx with hx | hx
      · rw [Expr.groups, hgroups, List.mem_singleton] at hx
        subst hx
        exact ⟨hk, fun _ => he⟩
      · exact hm.read x (.inl hx)
    · exact hm.read x (.inr hx)
  opened := hm.opened

end Guarded

def pushNamed (m : Machine) (name : Text) (e : Expr) : Machine :=
  match m.names.lookup name with
  | some k => m.push (.group k e)
  | none =>
    { m.push (.group (m.groups + 1) e) with groups := m.groups + 1, names := m.names ++ [(name, m.groups + 1)] }

/-- **A group of the names that holds a segment** -/
theorem Guarded.pushNamed (hm : Guarded own m) (name : Text) {e : Expr} (he : e.IsSegment) :
    Guarded own (m.pushNamed name e) := by
  unfold Machine.pushNamed
  split
  · rename_i k hlookup
    exact hm.push_segment (hm.counted _ (mem_of_lookup hlookup)) he
  · exact (hm.grow [(name, m.groups + 1)] (by simp) (by simp)).push_segment le_rfl he

/-! ## Naming -/

/-- the names that a source gives to groups, as far as it is read, each with the source it is read from -/
def namings (m : Machine) (s : Text) : List (Text × Text) :=
  match next? m.verbose s with
  | none => []
  | some (c, rest) =>
    (m.naming? c rest).toList.map (fun source => ((groupText m.verbose source).1, source)) ++
      match m.step c rest with
      | .error _ => []
      | .ok (n, rest) => if rest.length < s.length then namings n rest else []
termination_by s.length

theorem step_of_naming {c : Char} {s source : Text} (h : m.naming? c s = some source) : m.step c s = m.namedGroup source := by
  unfold naming? at h
  split at h
  · rename_i hc
    subst hc
    unfold parenthesisNaming? at h
    split at h
    · split at h
      · cases h
      · cases h
      · obtain rfl := Option.some.inj h
        simp only [step, parenthesis]
    · split at h
      · rename_i hnext
        obtain rfl := Option.some.inj h
        simp only [step, parenthesis, hnext]
      · cases h
    · cases h
  · cases h

/-- reading on from one place to another, with no name given in between -/
structure Goes (m : Machine) (s : Text) (n : Machine) (r : Text) : Prop where
  run : m.run s = n.run r
  namings : m.namings s = n.namings r

variable {s r t : Text} {k : Machine}

theorem Goes.trans (h : Goes m s n r) (h' : Goes n r k t) : Goes m s k t :=
  ⟨h.run.trans h'.run, h.namings.trans h'.namings⟩

theorem goes_of_step {c : Char} (hblank : isBlank c = false) (hsign : c ∉ ['#', '(']) (hstep : m.step c s = .ok (n, r))
    (hlt : r.length ≤ s.length) : Goes m (c :: s) n r := by
  simp only [List.mem_cons, List.not_mem_nil, or_false, not_or] at hsign
  have hnext := next?_of_counts m.verbose hblank hsign.1 s
  have hless : r.length < (c :: s).length := Nat.lt_succ_of_le hlt
  refine ⟨?_, ?_⟩
  · rw [Machine.run, hnext]
    simp only [hstep, if_pos hless]
  · rw [Machine.namings, hnext]
    simp only [hstep, if_pos hless, naming?, if_neg hsign.2, Option.toList_none, List.map_nil, List.nil_append]

def segmentTest (caseless : Bool) : CharTest := .set [.range '/'.toNat '/'.toNat] true caseless

theorem isSegment_run (caseless : Bool) : (Expr.run 1 (segmentTest caseless)).IsSegment := by
  have haccepts : ∀ caseless asciiOnly, (segmentTest caseless).accepts asciiOnly '/' = false := by decide +kernel
  exact ⟨_, rfl, haccepts caseless⟩

theorem leave_enterNamed (m : Machine) (name : Text) (e : Expr) :
    ((m.enterNamed name).pushSettled e).leave = .ok (m.pushNamed name e) := by
  simp only [leave, pushSettled, Machine.enterNamed, Machine.pushNamed]
  cases m.names.lookup name <;> rfl

/-- **A segment is read to its end**, under any flags -/
theorem exists_segment (m : Machine) (name rest : Text) :
    ∃ e : Expr, e.IsSegment ∧ Goes (m.enterNamed name) ("[^/]+)".toList ++ rest) (m.pushNamed name e) rest := by
  let k := m.enterNamed name
  let test := segmentTest k.flags.caseless
  have hset : k.step '[' ("^/]".toList ++ '+' :: ')' :: rest) = .ok (k.push (.char test), '+' :: ')' :: rest) := by
    have hread : ∀ caseless, set caseless "^/]".toList = .ok (segmentTest caseless, []) := by decide +kernel
    rw [step, set_append _ (hread _)]
    rfl
  have hrepeat : (k.push (.char test)).step '+' (')' :: rest) = .ok (k.pushSettled (.run 1 test), ')' :: rest) := by
    have hgreed : greed k.verbose (')' :: rest) = (.greedy, ')' :: rest) := by
      rw [greed, next?_of_counts _ (by decide) (by decide)]
      rfl
    have hstep : (k.push (.char test)).step '+' (')' :: rest) =
        (k.push (.char test)).repeatLast (1, none) (')' :: rest) := rfl
    rw [hstep, repeatLast]
    simp only [push, Sequence.push, verbose] at hgreed ⊢
    rw [hgreed]
    rfl
  have hleave : (k.pushSettled (.run 1 test)).step ')' rest = .ok (m.pushNamed name (.run 1 test), rest) := by
    rw [step, leave_enterNamed]
    rfl
  have hclass := goes_of_step (by decide) (by decide) hset (by simp)
  have hplus := goes_of_step (by decide) (by decide) hrepeat le_rfl
  have hclose := goes_of_step (by decide) (by decide) hleave le_rfl
  exact ⟨_, isSegment_run _, hclass.trans (hplus.trans hclose)⟩

/-! ## The run -/

/-- a name without blanks, comment signs and what ends a name is read as it stands, under any flags -/
theorem groupText_of_counts {v : Bool} {name : Text} (h : ∀ c ∈ name, isBlank c = false ∧ c ∉ ['#', ')', '>']) (rest : Text) :
    groupText v (name ++ '>' :: rest) = (name, '>' :: rest) := by
  have htest : ∀ c ∈ name, (c != ')' && c != '>') = true := by
    intro c hc
    have := (h c hc).2
    simp only [List.mem_cons, List.not_mem_nil, or_false, not_or] at this
    simp [this.2]
  cases v with
  | false =>
    simp only [groupText, takeRun, Bool.false_eq_true, if_false]
    rw [List.takeWhile_append_of_pos htest, List.dropWhile_append_of_pos htest]
    simp
  | true =>
    simp only [groupText, takeRun, if_true]
    induction name with
    | nil => rfl
    | cons c name ih =>
      obtain ⟨hc, hname⟩ := List.forall_mem_cons.1 h
      obtain ⟨hctest, htest⟩ := List.forall_mem_cons.1 htest
      have hsign : c ≠ '#' := fun hc' => hc.2 (hc' ▸ List.mem_cons_self)
      rw [List.cons_append, takeCounting]
      simp only [hc.1, Bool.false_eq_true, if_false, if_neg hsign, hctest, if_true, ih hname htest]

theorem suffix_of_naming {c : Char} {source : Text} (h : m.naming? c s = some source) : source <:+ s := by
  have htwo : ∀ {c d : Char} {rest : Text}, rest <:+ c :: d :: rest := (List.suffix_cons _ _).trans (List.suffix_cons _ _)
  unfold naming? at h
  split at h
  · unfold parenthesisNaming? at h
    split at h
    · split at h
      · cases h
      · cases h
      · exact Option.some.inj h ▸ htwo
    · split at h
      · rename_i hnext
        exact Option.some.inj h ▸ (suffix_of_next? hnext).trans htwo
      · cases h
    · cases h
  · cases h

/-- a name is read from a place in the source -/
theorem of_mem_namings {x : Text × Text} (h : x ∈ m.namings s) : (∃ v, x.1 = (groupText v x.2).1) ∧ x.2 <:+ s := by
  fun_induction namings m s with
  | case1 m s hnext => exact absurd h List.not_mem_nil
  | case2 m s c rest hnext ih =>
    have hrest : rest <:+ s := suffix_of_next? hnext
    rcases List.mem_append.1 h with h | h
    · obtain ⟨source, hsource, rfl⟩ := List.mem_map.1 h
      exact ⟨⟨m.verbose, rfl⟩, (suffix_of_naming (Option.mem_toList.1 hsource)).trans hrest⟩
    · split at h
      · exact absurd h List.not_mem_nil
      · rename_i n rest' hstep
        split at h
        · rename_i hlt
          obtain ⟨hname, hsuffix⟩ := ih n rest' hlt h
          exact ⟨hname, hsuffix.trans ((suffix_of_step hstep).trans hrest)⟩
        · exact absurd h List.not_mem_nil

/-- the group of a name that a segment follows is opened in front of it -/
theorem namedGroup_segment {name : Text} (hgroup : isGroupName name = true)
    (hplain : ∀ c ∈ name, isBlank c = false ∧ c ∉ ['#', ')', '>']) (rest : Text) :
    m.namedGroup (name ++ '>' :: rest) = .ok (m.enterNamed name, rest) := by
  have haccept : accept? m.verbose '>' ('>' :: rest) = some rest := by
    rw [accept?, next?_of_counts _ (by decide) (by decide)]
    exact if_pos rfl
  rw [namedGroup, groupName, groupText_of_counts hplain]
  simp only [hgroup, if_true, haccept]

/-- **What a run keeps**, where each of the names is followed by a segment -/
theorem guarded_of_run (hrun : m.run s = .ok n) (hm : Guarded own m)
    (hplain : ∀ name, own name → isGroupName name = true ∧ ∀ c ∈ name, isBlank c = false ∧ c ∉ ['#', ')', '>'])
    (hown : ∀ x ∈ m.namings s, own x.1 → ∃ rest, x.2 = x.1 ++ '>' :: ("[^/]+)".toList ++ rest)) : Guarded own n := by
  induction hlength : s.length using Nat.strong_induction_on generalizing m s with
  | _ length ih =>
    subst hlength
    rw [Machine.run] at hrun
    rw [Machine.namings] at hown
    split at hrun
    · exact Except.ok.inj hrun ▸ hm
    · rename_i c rest hnext
      rw [hnext] at hown
      split at hrun
      · cases hrun
      · rename_i m' rest' hstep
        split at hrun
        · rename_i hlt
          simp only [hstep, if_pos hlt, List.mem_append] at hown
          have hlater := fun x hx => hown x (.inr hx)
          by_cases hname : ∀ source ∈ m.naming? c rest, ¬own (groupText m.verbose source).1
          · rcases step_moves hstep with ⟨-, hleave⟩ | ⟨-, hmoves⟩
            · exact ih _ hlt hrun (hm.of_leave hleave) hlater rfl
            · exact ih _ hlt hrun (hm.of_moves hmoves hname) hlater rfl
          · -- the segment behind the name is read with it
            push Not at hname
            obtain ⟨source, hsource, hname⟩ := hname
            let name := (groupText m.verbose source).1
            have hnaming : (name, source) ∈ (m.naming? c rest).toList.map
                fun source => ((groupText m.verbose source).1, source) :=
              List.mem_map.2 ⟨source, Option.mem_toList.2 hsource, rfl⟩
            obtain ⟨more, hmore⟩ : ∃ more, source = name ++ '>' :: ("[^/]+)".toList ++ more) := hown _ (.inl hnaming) hname
            have hopen := namedGroup_segment (m := m) (hplain name hname).1 (hplain name hname).2 ("[^/]+)".toList ++ more)
            rw [step_of_naming hsource, hmore, hopen] at hstep
            obtain ⟨rfl, rfl⟩ := Prod.mk.inj (Except.ok.inj hstep)
            obtain ⟨e, he, hgoes⟩ := exists_segment m name more
            rw [hgoes.run] at hrun
            rw [hgoes.namings] at hlater
            have hless : more.length < s.length := by
              rw [List.length_append] at hlt
              omega
            exact ih _ hless hrun (hm.pushNamed name he) hlater rfl
        · cases hrun

/-- **In the end every group of the names holds a segment** -/
theorem isSegment_of_run (own : Text → Prop) (hrun : Machine.start.run s = .ok n)
    (hplain : ∀ name, own name → isGroupName name = true ∧ ∀ c ∈ name, isBlank c = false ∧ c ∉ ['#', ')', '>'])
    (hown : ∀ x ∈ Machine.start.namings s, own x.1 → ∃ rest, x.2 = x.1 ++ '>' :: ("[^/]+)".toList ++ rest)) {name : Text}
    (hname : own name) {k : ℕ} (hk : n.names.lookup name = some k) {e : Expr} (he : (k, e) ∈ n.sequence.close.groups) :
    e.IsSegment := by
  have hguarded := guarded_of_run hrun (guarded_start own) hplain hown
  exact (hguarded.read (k, e) (.inl (Sequence.mem_groups_close.1 he))).2 ⟨name, hname, mem_of_lookup hk⟩

end Machine

end UriRouting.Regex
