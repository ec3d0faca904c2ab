/-
What a source fails with. Most faults are of the notation (`Fault.IsSyntactic`): what stands there is no regular expression, or
one that the reader does not take up (`Fault.IsUnread`). Two are not: flags that exclude each other, which are told at the end,
and digits that write no number where one is read (`Misnumbers`): superscripts where a group is named, a numeral that is too
long, or no digits at all behind a weighted sum of mistakes.

- `step_error`: the faults of one element.
- `run_error_iff`: reading goes on to the first element that has a fault (`Comes`).
- `parse_incompatible_iff`, `parse_unreadable_iff`: the faults that are not of the notation, told exactly.
-/
import UriRouting.Proofs.Regex.Framing
import UriRouting.Proofs.Regex.Suffixes

namespace UriRouting.Regex

open Results

/-- the fault is one of the notation -/
def Fault.IsSyntactic : Fault → Prop
  | .incompatibleFlags | .unreadableNumber _ => False
  | _ => True

/-- the reader stops at notation that it does not take up; the source may be a regular expression -/
def Fault.IsUnread : Fault → Prop
  | .unread | .unknownProperty | .tolerance => True
  | _ => False

variable {v : Bool} {s : Text} {f : Fault}

/-! ## Numbers -/

/-- digits of some kind that write no number: they are too many, or not all of them are decimal -/
def WritesNoNumber (digits : Text) : Prop :=
  digits ≠ [] ∧ (∀ c ∈ digits, Codepoint.isDigit c.toNat = true) ∧
    (Decimal.readableLength < digits.length ∨ ∃ c ∈ digits, Codepoint.isDecimalDigit c.toNat = false)

theorem decimalNumber?_eq_none_iff {t : Text} : decimalNumber? t = none ↔
    Decimal.readableLength < t.length ∨ ∃ c ∈ t, Codepoint.isDecimalDigit c.toNat = false := by
  unfold decimalNumber?
  split
  · rename_i h
    obtain ⟨hlength, hall⟩ := h
    have hdecimal : ∀ c ∈ t, Codepoint.isDecimalDigit c.toNat = true := List.all_eq_true.1 hall
    simp only [reduceCtorEq, false_iff, not_or, not_lt, hlength, true_and, not_exists, not_and, Bool.not_eq_false]
    exact hdecimal
  · rename_i h
    simp only [true_iff]
    by_cases hlength : t.length ≤ Decimal.readableLength
    · right
      simpa [hlength] using h
    · exact .inl (not_le.1 hlength)

theorem groupReference_error (h : groupReference v s = .error f) :
    f.IsSyntactic ∨ f = .unreadableNumber (groupText v s).1 ∧ WritesNoNumber (groupText v s).1 := by
  unfold groupReference at h
  simp only at h
  split at h
  · rename_i hdigits
    split at h
    · exact .inl (Except.error.inj h ▸ trivial)
    · cases h
    · rename_i hnone
      simp only [Bool.and_eq_true, Bool.not_eq_true', List.isEmpty_eq_false_iff, List.all_eq_true] at hdigits
      exact .inr ⟨(Except.error.inj h).symm, hdigits.1, hdigits.2, decimalNumber?_eq_none_iff.1 hnone⟩
  · split at h
    · cases h
    · exact .inl (Except.error.inj h ▸ trivial)

theorem groupReference_unreadable (h : WritesNoNumber (groupText v s).1) :
    groupReference v s = .error (.unreadableNumber (groupText v s).1) := by
  obtain ⟨hne, hdigits, hnone⟩ := h
  have hall : (!(groupText v s).1.isEmpty && (groupText v s).1.all fun c => Codepoint.isDigit c.toNat) = true := by
    simp only [Bool.and_eq_true, Bool.not_eq_true', List.isEmpty_eq_false_iff, List.all_eq_true]
    exact ⟨hne, hdigits⟩
  simp only [groupReference, if_pos hall, decimalNumber?_eq_none_iff.2 hnone]

theorem angleReference_error (h : angleReference v s = .error f) : f.IsSyntactic ∨ ∃ more, accept? v '<' s = some more ∧
    f = .unreadableNumber (groupText v more).1 ∧ WritesNoNumber (groupText v more).1 := by
  unfold angleReference at h
  split at h
  · exact .inl (Except.error.inj h ▸ trivial)
  · rename_i more hopen
    split at h
    · rename_i hreference
      exact (groupReference_error (Except.error.inj h ▸ hreference)).imp_right fun hdigits => ⟨more, hopen, hdigits⟩
    · split at h
      · exact .inl (Except.error.inj h ▸ trivial)
      · cases h

theorem angleReference_unreadable {more : Text} (hopen : accept? v '<' s = some more)
    (h : WritesNoNumber (groupText v more).1) : angleReference v s = .error (.unreadableNumber (groupText v more).1) := by
  simp only [angleReference, hopen, groupReference_unreadable h]

theorem conditionFault_cases (v : Bool) (s : Text) : (conditionFault v s).IsSyntactic ∨
    conditionFault v s = .unreadableNumber (groupText v s).1 ∧ WritesNoNumber (groupText v s).1 := by
  unfold conditionFault
  split
  · rename_i hreference
    exact (groupReference_error hreference).imp_left False.elim
  · rename_i f hne hreference
    split
    · exact .inl trivial
    · refine .inl ((groupReference_error hreference).resolve_right ?_)
      rintro ⟨rfl, -⟩
      exact hne _ rfl
  · exact .inl trivial

theorem conditionFault_unreadable (h : WritesNoNumber (groupText v s).1) :
    conditionFault v s = .unreadableNumber (groupText v s).1 := by
  simp only [conditionFault, groupReference_unreadable h]

/-- where no flag group stands, a conditional may, whose digits write no number -/
theorem extensionFault_cases (v : Bool) (s : Text) (h : f.IsSyntactic) : (extensionFault v s f).IsSyntactic ∨
    ∃ rest, s = '(' :: rest ∧ extensionFault v s f = .unreadableNumber (groupText v rest).1 ∧
      WritesNoNumber (groupText v rest).1 := by
  unfold extensionFault
  split
  · rename_i rest
    exact (conditionFault_cases v rest).imp_right fun hdigits => ⟨rest, rfl, hdigits⟩
  · split
    · exact .inl trivial
    · exact .inl h

/-- a limit in braces, read from behind the opening one, has too many digits -/
inductive OverlongLimit (v : Bool) (s : Text) : Text → Prop
  | lower (h : Decimal.readableLength < (takeRun v isDigit s).1.length) : OverlongLimit v s (takeRun v isDigit s).1
  | upper {rest : Text} (hlower : (takeRun v isDigit s).1.length ≤ Decimal.readableLength)
    (hcomma : accept? v ',' (takeRun v isDigit s).2 = some rest)
    (h : Decimal.readableLength < (takeRun v isDigit rest).1.length) : OverlongLimit v s (takeRun v isDigit rest).1

theorem checked_error {lower upper rest : Text} (h : limits?.checked v lower upper rest = .error f) : f.IsSyntactic ∨
    (f = .unreadableNumber lower ∧ Decimal.readableLength < lower.length) ∨
    (f = .unreadableNumber upper ∧ lower.length ≤ Decimal.readableLength ∧ Decimal.readableLength < upper.length) := by
  unfold limits?.checked at h
  split at h
  · rename_i hlower
    exact .inr (.inl ⟨(Except.error.inj h).symm, hlower⟩)
  split at h
  · rename_i hlower hupper
    exact .inr (.inr ⟨(Except.error.inj h).symm, not_lt.1 hlower, hupper⟩)
  split at h
  · cases h
  · exact .inl (Except.error.inj h ▸ trivial)

theorem limits?_error (h : limits? v s = .error f) :
    f.IsSyntactic ∨ ∃ digits, f = .unreadableNumber digits ∧ OverlongLimit v s digits := by
  unfold limits? at h
  simp only at h
  split at h
  · rename_i rest hcomma
    rcases checked_error h with hsyntactic | ⟨hf, hlower⟩ | ⟨hf, hlower, hupper⟩
    · exact .inl hsyntactic
    · exact .inr ⟨_, hf, .lower hlower⟩
    · exact .inr ⟨_, hf, .upper hlower hcomma hupper⟩
  · split at h
    · cases h
    · rcases checked_error h with hsyntactic | ⟨hf, hlower⟩ | ⟨hf, -, hlower⟩
      · exact .inl hsyntactic
      · exact .inr ⟨_, hf, .lower hlower⟩
      · exact .inr ⟨_, hf, .lower hlower⟩

theorem limits?_overlong {digits : Text} (h : OverlongLimit v s digits) : limits? v s = .error (.unreadableNumber digits) := by
  cases h with
  | lower h =>
    have hsome : (takeRun v isDigit s).1.isEmpty = false := by
      rw [List.isEmpty_eq_false_iff]
      rintro hnil
      simp [hnil] at h
    unfold limits?
    simp only [hsome, limits?.checked, if_pos h, Bool.false_eq_true, if_false]
    split <;> rfl
  | upper hlower hcomma h =>
    simp only [limits?, hcomma, limits?.checked, if_neg (not_lt.2 hlower), if_pos h]

/-- a condition of a tolerance, of those read one after the other, is a weighted sum whose bound has no digits -/
inductive LacksBound (v : Bool) : List Bounded → Text → Prop
  | here {free : List Bounded} {s rest behind : Text} (hkind : mistake? v free s = none) (hfree : .weights ∈ free)
    (hsum : pastWeights v Bounded.weighable s = .ok (some rest)) (hcomparison : pastComparison? v rest = some behind)
    (hdigits : (takeRun v isDigit behind).1 = []) : LacksBound v free s
  | later {free : List Bounded} {s rest behind : Text} {b : Bounded}
    (hcondition : toleranceCondition v free s = .ok (some (b, rest))) (hcomma : accept? v ',' rest = some behind)
    (hb : b ∈ free) (h : LacksBound v (free.erase b) behind) : LacksBound v free s

theorem pastWeights_error {free : List Bounded} (h : pastWeights v free s = .error f) : f = .tolerance := by
  fun_induction pastWeights v free s with
  | case3 free s c rest hnext b hletter hfree more hplus ih => exact ih h
  | case5 => exact (Except.error.inj h).symm
  | _ => cases h

theorem upperBound_error {b : Bounded} (h : upperBound v b s = .error f) : f = .tolerance := by
  unfold upperBound at h
  simp only at h
  split at h
  · exact (Except.error.inj h).symm
  · cases h

theorem weightsCondition_error {free : List Bounded} (hkind : mistake? v free s = none)
    (h : weightsCondition v free s = .error f) : f.IsSyntactic ∨ f = .unreadableNumber [] ∧ LacksBound v free s := by
  unfold weightsCondition at h
  split at h
  · exact .inl (Except.error.inj h ▸ trivial)
  · rename_i hfree
    split at h
    · rename_i hsum
      rw [← Except.error.inj h, pastWeights_error hsum]
      exact .inl trivial
    · cases h
    · rename_i rest hsum
      split at h
      · cases h
      · rename_i behind hcomparison
        simp only at h
        split at h
        · rename_i hdigits
          have hnil := List.isEmpty_iff.1 hdigits
          rw [hnil] at h
          exact .inr ⟨(Except.error.inj h).symm, .here hkind (not_not.1 hfree) hsum hcomparison hnil⟩
        · cases h

theorem toleranceCondition_error {free : List Bounded} (h : toleranceCondition v free s = .error f) :
    f.IsSyntactic ∨ f = .unreadableNumber [] ∧ LacksBound v free s := by
  have hbound : ∀ {b : Bounded} {t : Text}, upperBound v b t = .error f → f.IsSyntactic :=
    fun hupper => upperBound_error hupper ▸ trivial
  unfold toleranceCondition at h
  split at h
  · split at h
    · exact .inl (hbound h)
    · cases h
  · rename_i hkind
    simp only at h
    split at h
    · split at h
      · exact .inl (hbound h)
      · exact weightsCondition_error hkind h
    · exact weightsCondition_error hkind h

theorem checkConditions_error {free : List Bounded} (h : checkConditions v free s = .error f) :
    f.IsSyntactic ∨ f = .unreadableNumber [] ∧ LacksBound v free s := by
  fun_induction checkConditions v free s with
  | case1 free s g hcondition => exact Except.error.inj h ▸ toleranceCondition_error hcondition
  | case2 => cases h
  | case3 free s b rest hcondition behind hcomma hb ih =>
    exact (ih h).imp_right fun hlacks => ⟨hlacks.1, .later hcondition hcomma hb hlacks.2⟩
  | case4 => exact .inl (Except.error.inj h ▸ trivial)
  | case5 => exact .inl (Except.error.inj h ▸ trivial)

/-- in front of a weighted sum no bound is read -/
theorem pastComparison?_of_pastWeights {free : List Bounded} {rest : Text} (h : pastWeights v free s = .ok (some rest)) :
    pastComparison? v (takeRun v isDigit s).2 = none := by
  unfold pastWeights at h
  split at h
  · cases h
  · rename_i c more hnext
    have hc : c ≠ '<' := by
      rintro rfl
      cases h
    rw [pastComparison?, accept?, hnext]
    simp [hc.symm]

theorem checkConditions_unreadable {free : List Bounded} (h : LacksBound v free s) :
    checkConditions v free s = .error (.unreadableNumber []) := by
  induction h with
  | @here free s rest behind hkind hfree hsum hcomparison hdigits =>
    have hweights : weightsCondition v free s = .error (.unreadableNumber []) := by
      simp only [weightsCondition, not_not.2 hfree, hsum, hcomparison, hdigits, List.isEmpty_nil, if_false, if_true]
    have hcondition : toleranceCondition v free s = .error (.unreadableNumber []) := by
      simp only [toleranceCondition, hkind, pastComparison?_of_pastWeights hsum, Option.bind_none, hweights]
    rw [checkConditions, hcondition]
  | later hcondition hcomma hb _ ih =>
    rw [checkConditions, hcondition]
    simp only [hcomma, dif_pos hb, ih]

/-- a number is read where the element begins, and these digits do not write one -/
inductive Misnumbers (v : Bool) : Char → Text → Text → Prop
  | named {rest more : Text} (hnext : next? v rest = some ('=', more)) (h : WritesNoNumber (groupText v more).1) :
    Misnumbers v '(' ('?' :: 'P' :: rest) (groupText v more).1
  | condition {rest : Text} (h : WritesNoNumber (groupText v rest).1) :
    Misnumbers v '(' ('?' :: '(' :: rest) (groupText v rest).1
  | angle {c : Char} {rest more : Text} (hc : c = 'g' ∨ c = 'L') (hopen : accept? v '<' rest = some more)
    (h : WritesNoNumber (groupText v more).1) : Misnumbers v '\\' (c :: rest) (groupText v more).1
  | limits {rest digits : Text} (h : OverlongLimit v rest digits) : Misnumbers v '{' rest digits
  | weights {rest : Text} (hlimits : limits? v rest = .ok none) (h : LacksBound v Bounded.all rest) :
    Misnumbers v '{' rest []

/-! ## Faults of the notation -/

theorem isSyntactic_of_map {α β : Type} {r : Except Fault α} {g : α → β} (h : r.map g = .error f)
    (hr : r = .error f → f.IsSyntactic) : f.IsSyntactic := hr (map_eq_error_iff.1 h)

theorem isSyntactic_of_property {name : Text} (h : property name = .error f) : f.IsSyntactic := by
  unfold property at h
  split at h
  · cases h
  · exact Except.error.inj h ▸ trivial

theorem isSyntactic_of_bracedProperty {negated : Bool} (h : bracedProperty v negated s = .error f) : f.IsSyntactic := by
  unfold bracedProperty at h
  simp only at h
  split at h
  · exact isSyntactic_of_map h isSyntactic_of_property
  · split at h
    · exact Except.error.inj h ▸ trivial
    · cases h

theorem isSyntactic_of_propertyEscape {negated : Bool} (h : propertyEscape v negated s = .error f) : f.IsSyntactic := by
  unfold propertyEscape at h
  split at h
  · split at h
    · exact isSyntactic_of_bracedProperty h
    · exact isSyntactic_of_bracedProperty h
  · split at h
    · exact isSyntactic_of_map h isSyntactic_of_property
    · cases h
  · cases h

theorem isSyntactic_of_hexEscape {k n : ℕ} (h : hexEscape v k n s = .error f) : f.IsSyntactic := by
  induction k generalizing n s with
  | zero =>
    unfold hexEscape at h
    split at h
    · cases h
    · exact Except.error.inj h ▸ trivial
  | succ k ih =>
    unfold hexEscape at h
    split at h
    · split at h
      · exact ih h
      · exact Except.error.inj h ▸ trivial
    · exact Except.error.inj h ▸ trivial

theorem isSyntactic_of_octalEscape {first : Char} (h : octalEscape v first s = .error f) : f.IsSyntactic := by
  unfold octalEscape at h
  split at h
  · exact Except.error.inj h ▸ trivial
  · split at h
    · cases h
    · split at h <;> cases h

theorem letterFault_cases (v inSet : Bool) (c : Char) (s : Text) : (letterFault v inSet c s).IsSyntactic ∨
    inSet = false ∧ c = 'L' ∧ ∃ more, accept? v '<' s = some more ∧
      letterFault v inSet c s = .unreadableNumber (groupText v more).1 ∧ WritesNoNumber (groupText v more).1 := by
  unfold letterFault
  split
  · exact .inl trivial
  split
  · exact .inl trivial
  split
  · rename_i hset hc
    split
    · rename_i hreference
      exact (angleReference_error hreference).imp_right fun hdigits => ⟨Bool.not_eq_true _ ▸ hset, hc, hdigits⟩
    · exact .inl trivial
  split
  · exact .inl trivial
  · exact .inl trivial

/-- a letter that names a list may have digits behind it that write no number -/
theorem escape_error {wrap : ℕ} {inSet : Bool} (h : escape wrap v inSet s = .error f) : f.IsSyntactic ∨
    inSet = false ∧ ∃ rest more, s = 'L' :: rest ∧ accept? v '<' rest = some more ∧
      f = .unreadableNumber (groupText v more).1 ∧ WritesNoNumber (groupText v more).1 := by
  unfold escape at h
  split at h
  · exact .inl (Except.error.inj h ▸ trivial)
  rename_i c rest
  split at h
  · exact .inl (isSyntactic_of_hexEscape h)
  split at h
  · exact .inl (isSyntactic_of_hexEscape h)
  split at h
  · exact .inl (isSyntactic_of_hexEscape h)
  split at h
  · split at h
    · rename_i hproperty
      exact .inl (isSyntactic_of_propertyEscape (Except.error.inj h ▸ hproperty))
    · cases h
    · cases h
  split at h
  · split at h
    · cases h
    · cases h
    · cases h
    · obtain rfl := Except.error.inj h
      refine (letterFault_cases v inSet c rest).imp_right ?_
      rintro ⟨hset, rfl, more, hdigits⟩
      exact ⟨hset, rest, more, rfl, hdigits⟩
  split at h
  · split at h
    · exact .inl (isSyntactic_of_octalEscape h)
    · cases h
  · cases h

theorem isSyntactic_of_closedClass {negated : Bool} {name : Text} (h : closedClass negated name s = .error f) :
    f.IsSyntactic := by
  unfold closedClass at h
  split at h
  · split at h
    · cases h
    · exact isSyntactic_of_map h isSyntactic_of_property
  · split at h
    · exact Except.error.inj h ▸ trivial
    · cases h

theorem isSyntactic_of_setElement (h : setElement s = .error f) : f.IsSyntactic := by
  unfold setElement at h
  split at h
  · exact Except.error.inj h ▸ trivial
  · exact (escape_error h).resolve_right nofun
  · split at h
    · rename_i hclass
      exact isSyntactic_of_closedClass (Except.error.inj h ▸ hclass)
    · cases h
    · cases h
  · cases h

theorem isSyntactic_of_setMember (h : setMember s = .error f) : f.IsSyntactic := by
  unfold setMember at h
  split at h
  · rename_i helement
    exact isSyntactic_of_setElement (Except.error.inj h ▸ helement)
  · split at h
    · cases h
    · split at h
      · rename_i helement
        exact isSyntactic_of_setElement (Except.error.inj h ▸ helement)
      · split at h
        · cases h
        · exact Except.error.inj h ▸ trivial
      · cases h
  · cases h

theorem isSyntactic_of_setMembers (h : setMembers s = .error f) : f.IsSyntactic := by
  fun_induction setMembers s with
  | case1 => exact Except.error.inj h ▸ trivial
  | case2 => cases h
  | case3 c s _ g hmember => exact isSyntactic_of_setMember (Except.error.inj h ▸ hmember)
  | case4 c s _ items rest hmember hle ih => exact isSyntactic_of_map h ih
  | case5 => exact Except.error.inj h ▸ trivial

theorem isSyntactic_of_set {caseless : Bool} (h : set caseless s = .error f) : f.IsSyntactic := by
  unfold set at h
  simp only at h
  split at h
  · rename_i hmember
    exact isSyntactic_of_setMember (Except.error.inj h ▸ hmember)
  · exact isSyntactic_of_map h isSyntactic_of_setMembers

theorem isSyntactic_of_groupName (h : groupName v s = .error f) : f.IsSyntactic := by
  unfold groupName at h
  simp only at h
  split at h
  · cases h
  · exact Except.error.inj h ▸ trivial

theorem isSyntactic_of_flagChange (h : flagChange v s = .error f) : f.IsSyntactic := by
  unfold flagChange at h
  simp only at h
  split at h
  · cases h
  · split at h
    · exact Except.error.inj h ▸ trivial
    · cases h

/-! ## Elements -/

namespace Machine

variable {m : Machine}

theorem isSyntactic_of_leave (h : m.leave = .error f) : f.IsSyntactic := by
  unfold leave at h
  split at h
  · exact Except.error.inj h ▸ trivial
  · cases h

theorem isSyntactic_of_pushReference {r : Reference} (h : m.pushReference r = .error f) : f.IsSyntactic := by
  unfold pushReference at h
  split at h
  · exact Except.error.inj h ▸ trivial
  · cases h

theorem isSyntactic_of_pushEscaped {e : Escaped} (h : m.pushEscaped e = .error f) : f.IsSyntactic := by
  cases e with
  | reference r => exact isSyntactic_of_pushReference h
  | _ => cases h

theorem isSyntactic_of_repeatLast {limits : Limits} (h : m.repeatLast limits s = .error f) : f.IsSyntactic := by
  unfold repeatLast at h
  split at h
  · exact Except.error.inj h ▸ trivial
  · cases h

theorem flagGroup_error (h : m.flagGroup s = .error f) : f.IsSyntactic ∨ ∃ rest, s = '(' :: rest ∧
    f = .unreadableNumber (groupText m.verbose rest).1 ∧ WritesNoNumber (groupText m.verbose rest).1 := by
  unfold flagGroup at h
  split at h
  · rename_i hchange
    exact Except.error.inj h ▸ extensionFault_cases m.verbose s (isSyntactic_of_flagChange hchange)
  · simp only at h
    split at h
    · cases h
    · cases h
    · exact Except.error.inj h ▸ extensionFault_cases m.verbose s trivial

theorem flagGroup_condition (s : Text) : m.flagGroup ('(' :: s) = .error (conditionFault m.verbose s) := by
  have hnext : next? m.verbose ('(' :: s) = some ('(', s) := next?_of_counts m.verbose (by decide) (by decide) s
  have hletters : flagLetters m.verbose ('(' :: s) = ([], '(' :: s) := by
    cases hv : m.verbose <;> rfl
  have haccept : ∀ c, c ≠ '(' → accept? m.verbose c ('(' :: s) = none := by
    intro c hc
    rw [accept?, hnext]
    exact if_neg hc
  simp only [flagGroup, flagChange, hletters, haccept '-' (by decide), haccept ':' (by decide), haccept ')' (by decide),
    extensionFault]

theorem isSyntactic_of_namedGroup (h : m.namedGroup s = .error f) : f.IsSyntactic := by
  unfold namedGroup at h
  split at h
  · rename_i hname
    exact isSyntactic_of_groupName (Except.error.inj h ▸ hname)
  · split at h
    · exact Except.error.inj h ▸ trivial
    · cases h

theorem namedReference_error (h : m.namedReference s = .error f) : f.IsSyntactic ∨
    f = .unreadableNumber (groupText m.verbose s).1 ∧ WritesNoNumber (groupText m.verbose s).1 := by
  unfold namedReference at h
  split at h
  · rename_i hreference
    exact groupReference_error (Except.error.inj h ▸ hreference)
  · split at h
    · exact .inl (Except.error.inj h ▸ trivial)
    · exact .inl (isSyntactic_of_map h isSyntactic_of_pushReference)

theorem angleReference_error (h : m.angleReference s = .error f) : ∃ more, accept? m.verbose '<' s = some more ∧
    f = .unreadableNumber (groupText m.verbose more).1 ∧ WritesNoNumber (groupText m.verbose more).1 := by
  unfold angleReference at h
  split at h
  · split at h <;> cases h
  · rename_i digits hreference
    exact Except.error.inj h ▸ (Regex.angleReference_error hreference).resolve_left id
  · cases h

theorem parenthesis_error (h : m.parenthesis s = .error f) :
    f.IsSyntactic ∨ ∃ digits, f = .unreadableNumber digits ∧ Misnumbers m.verbose '(' s digits := by
  unfold parenthesis at h
  split at h
  · split at h
    · cases h
    · cases h
    · exact .inl (isSyntactic_of_namedGroup h)
  · cases h
  · cases h
  · cases h
  · split at h
    · cases h
    · exact .inl (Except.error.inj h ▸ trivial)
  · split at h
    · exact .inl (isSyntactic_of_namedGroup h)
    · rename_i hnext
      exact (namedReference_error h).imp_right fun hdigits => ⟨_, hdigits.1, .named hnext hdigits.2⟩
    · rw [← Except.error.inj h]
      split
      · exact .inl trivial
      · exact .inl trivial
  · refine (flagGroup_error h).imp_right ?_
    rintro ⟨rest, rfl, hf, hdigits⟩
    exact ⟨_, hf, .condition hdigits⟩
  · split at h
    · rw [← Except.error.inj h, verbFault]
      split
      · exact .inl trivial
      · exact .inl trivial
    · cases h
  · cases h

/-- **The faults of an element** are of the notation, or the element has digits that write no number -/
theorem step_error {c : Char} (h : m.step c s = .error f) :
    f.IsSyntactic ∨ ∃ digits, f = .unreadableNumber digits ∧ Misnumbers m.verbose c s digits := by
  unfold step at h
  split at h
  · cases h
  · exact .inl (isSyntactic_of_map h isSyntactic_of_leave)
  · exact parenthesis_error h
  · obtain ⟨more, hopen, hf, hdigits⟩ := angleReference_error h
    exact .inr ⟨_, hf, .angle (.inl rfl) hopen hdigits⟩
  · split at h
    · rename_i hescape
      refine (escape_error (Except.error.inj h ▸ hescape)).imp_right ?_
      rintro ⟨-, rest, more, rfl, hopen, hf, hdigits⟩
      exact ⟨_, hf, .angle (.inr rfl) hopen hdigits⟩
    · exact .inl (isSyntactic_of_map h isSyntactic_of_pushEscaped)
  · cases h
  · exact .inl (isSyntactic_of_map h isSyntactic_of_set)
  · cases h
  · cases h
  · exact .inl (isSyntactic_of_repeatLast h)
  · exact .inl (isSyntactic_of_repeatLast h)
  · exact .inl (isSyntactic_of_repeatLast h)
  · split at h
    · rename_i hlimits
      refine (limits?_error (Except.error.inj h ▸ hlimits)).imp_right ?_
      rintro ⟨digits, hf, hoverlong⟩
      exact ⟨digits, hf, .limits hoverlong⟩
    · rename_i hlimits
      refine (checkConditions_error (map_eq_error_iff.1 h)).imp_right fun hlacks => ?_
      exact ⟨[], hlacks.1, .weights hlimits hlacks.2⟩
    · exact .inl (isSyntactic_of_repeatLast h)
  · cases h

/-- an escape that cannot be read fails the step, but for a reference `\g`, which is no escape -/
theorem step_escape_error (hg : s.head? ≠ some 'g') (h : escape m.flags.octalWrap m.verbose false s = .error f) :
    m.step '\\' s = .error f := by
  have hother : ∀ rest, s = 'g' :: rest → False := by
    rintro rest rfl
    exact hg rfl
  simp only [step, h]

theorem step_unreadable {c : Char} {digits : Text} (h : Misnumbers m.verbose c s digits) :
    m.step c s = .error (.unreadableNumber digits) := by
  cases h with
  | named hnext hdigits =>
    simp only [step, parenthesis, hnext, namedReference, groupReference_unreadable hdigits]
  | condition hdigits =>
    rw [step, parenthesis_of_flags (by simp), flagGroup_condition, conditionFault_unreadable hdigits]
  | @angle c rest more hc hopen hdigits =>
    have hreference := angleReference_unreadable hopen hdigits
    rcases hc with rfl | rfl
    · simp only [step, angleReference, hreference]
    · refine step_escape_error (by simp) ?_
      change Except.error (letterFault m.verbose false 'L' rest) = _
      simp [letterFault, hreference]
  | limits hoverlong => simp only [step, limits?_overlong hoverlong]
  | weights hlimits hlacks =>
    simp only [step, hlimits, checkTolerance, checkConditions_unreadable hlacks, Except.map]

theorem step_unreadable_iff {c : Char} {digits : Text} :
    m.step c s = .error (.unreadableNumber digits) ↔ Misnumbers m.verbose c s digits := by
  refine ⟨?_, step_unreadable⟩
  intro h
  obtain ⟨digits', hf, hmisnumbers⟩ := (step_error h).resolve_left id
  exact Fault.unreadableNumber.inj hf ▸ hmisnumbers

/-! ## The source as a whole -/

/-- reading the source from the machine on comes to the other machine, with the rest of the source in front of it -/
inductive Comes : Machine → Text → Machine → Text → Prop
  | refl (m : Machine) (s : Text) : Comes m s m s
  | step {m n k : Machine} {s rest behind r : Text} {c : Char} (hnext : next? m.verbose s = some (c, rest))
    (hstep : m.step c rest = .ok (n, behind)) (h : Comes n behind k r) : Comes m s k r

/-- each element takes something of the source, so reading never stands still -/
theorem length_lt_of_step {m n : Machine} {s rest behind : Text} {c : Char} (hnext : next? m.verbose s = some (c, rest))
    (hstep : m.step c rest = .ok (n, behind)) : behind.length < s.length :=
  (suffix_of_step hstep).length_le.trans_lt (length_lt_of_next? hnext)

theorem run_of_comes {m k : Machine} {s r : Text} (h : Comes m s k r) : m.run s = k.run r := by
  induction h with
  | refl m s => rfl
  | step hnext hstep _ ih =>
    rw [run, hnext]
    simp only [hstep, if_pos (length_lt_of_step hnext hstep), ih]

/-- **Reading fails with the first element that has a fault** -/
theorem run_error_iff {m : Machine} {s : Text} : m.run s = .error f ↔
    ∃ k r c rest, Comes m s k r ∧ next? k.verbose r = some (c, rest) ∧ k.step c rest = .error f := by
  constructor
  · intro h
    fun_induction run m s with
    | case1 m s hnext => cases h
    | case2 m s c rest hnext g hstep =>
      obtain rfl := Except.error.inj h
      exact ⟨m, s, c, rest, .refl m s, hnext, hstep⟩
    | case3 m s c rest hnext n behind hstep hlt ih =>
      obtain ⟨k, r, d, more, hcomes, hfault⟩ := ih h
      exact ⟨k, r, d, more, .step hnext hstep hcomes, hfault⟩
    | case4 m s c rest hnext n behind hstep hlt => exact absurd (length_lt_of_step hnext hstep) hlt
  · rintro ⟨k, r, c, rest, hcomes, hnext, hstep⟩
    rw [run_of_comes hcomes, run, hnext]
    simp only [hstep]

theorem run_unreadable_iff {m : Machine} {s digits : Text} : m.run s = .error (.unreadableNumber digits) ↔
    ∃ k r c rest, Comes m s k r ∧ next? k.verbose r = some (c, rest) ∧ Misnumbers k.verbose c rest digits := by
  simp only [run_error_iff, step_unreadable_iff]

/-- that flags exclude each other is not told before the end -/
theorem run_ne_incompatible (m : Machine) (s : Text) : m.run s ≠ .error .incompatibleFlags := by
  intro h
  obtain ⟨k, r, c, rest, -, -, hstep⟩ := run_error_iff.1 h
  rcases step_error hstep with hsyntactic | ⟨digits, hf, -⟩
  · exact hsyntactic
  · cases hf

theorem finish_incompatible_iff {m : Machine} :
    m.finish = .error .incompatibleFlags ↔ m.frames = [] ∧ m.flags.areCompatible = false := by
  unfold finish
  split
  · rename_i hframes
    simp only [Except.error.injEq, reduceCtorEq, false_iff, not_and]
    intro hnil
    simp [hnil] at hframes
  · rename_i hframes
    split
    · rename_i hflags
      simp_all
    · rename_i hflags
      simp only
      split <;> simp_all

theorem finish_ne_unreadable (m : Machine) (digits : Text) : m.finish ≠ .error (.unreadableNumber digits) := by
  unfold finish
  split
  · simp
  · split
    · simp
    · simp only
      split <;> simp

end Machine

/-- **Flags exclude each other** in a source that is read to its end, leaves no parenthesis open and has at its end, outside all
groups, more than one of the flags on that choose the classes -/
theorem parse_incompatible_iff {s : Text} : parse s = .error .incompatibleFlags ↔
    ∃ m, Machine.start.run s = .ok m ∧ m.frames = [] ∧ m.flags.areCompatible = false := by
  unfold parse
  cases hrun : Machine.start.run s with
  | error g =>
    have hne := Machine.run_ne_incompatible Machine.start s
    rw [hrun] at hne
    simpa using hne
  | ok m => simp [Machine.finish_incompatible_iff]

/-- **Digits write no number** in a source of which an element is read that has them -/
theorem parse_unreadable_iff {s digits : Text} : parse s = .error (.unreadableNumber digits) ↔
    ∃ m r c rest, Machine.Comes .start s m r ∧ next? m.verbose r = some (c, rest) ∧ Misnumbers m.verbose c rest digits := by
  rw [← Machine.run_unreadable_iff, parse]
  cases Machine.start.run s with
  | error g => simp
  | ok m => simp [Machine.finish_ne_unreadable]

end UriRouting.Regex
