/-
Literals, names and constraints where they stand in a template. A literal is all of its stretch. Between the braces of a
placeholder the name stands in front of the first colon, and the constraint behind it, each without the blanks around it. The
cut at the colon and the trimming go by single characters, so either of them can tear an escape pair apart.

Results:
- `exists_part`, `HasPart.unique`: every backslash of a template stands in one part.
- `Part.keeps_or_tears`, `Part.dangles_iff`: a part keeps the pairs that begin in it, but for one that it ends in the middle of;
  that it dangles says that there is such a one, or that the template ends there.
- `HasPart.after_cases`: only a colon is cut off behind half of a pair, or a blank.
-/
import UriRouting.Proofs.Template.Escapes

namespace UriRouting.Template

/-! ## Blanks around a text -/

/-- the blanks that trimming takes off the start -/
def blanksBefore (t : Text) : Text := t.takeWhile isBlank

/-- the blanks that trimming takes off the end, when those at the start are off -/
def blanksBehind (t : Text) : Text := (t.dropWhile isBlank).rtakeWhile isBlank

theorem trim_split (t : Text) : blanksBefore t ++ (t.trim ++ blanksBehind t) = t := by
  have htrim : t.trim = (t.dropWhile isBlank).rdropWhile isBlank := rfl
  have hback : t.trim ++ blanksBehind t = t.dropWhile isBlank := by
    rw [htrim, blanksBehind, List.rdropWhile, List.rtakeWhile, ← List.reverse_append, List.takeWhile_append_dropWhile,
      List.reverse_reverse]
  rw [hback]
  exact List.takeWhile_append_dropWhile

theorem trim_split_append (t rest : Text) : blanksBefore t ++ (t.trim ++ (blanksBehind t ++ rest)) = t ++ rest := by
  conv_rhs => rw [← trim_split t, List.append_assoc, List.append_assoc]

theorem isBlank_of_mem_before {t : Text} {c : Char} (h : c ∈ blanksBefore t) : isBlank c = true :=
  List.all_eq_true.1 List.all_takeWhile c h

theorem isBlank_of_mem_behind {t : Text} {c : Char} (h : c ∈ blanksBehind t) : isBlank c = true :=
  List.mem_rtakeWhile_imp h

/-- blanks hold no backslash -/
theorem not_mem_of_blank {t : Text} (h : ∀ c ∈ t, isBlank c = true) : '\\' ∉ t :=
  fun hmem => absurd (h _ hmem) (by decide)

/-! ## Parts -/

/-- what a text is to its token -/
inductive Role where
  | literal
  | name
  | constraint
deriving DecidableEq, Repr

/-- what reading a template takes off behind a text of the role -/
def Role.Cuts : Role → Char → Prop
  | literal, _ => False
  | name, c => c = ':' ∨ isBlank c = true
  | constraint, c => isBlank c = true

theorem Role.eq_or_isBlank_of_cuts {role : Role} {c : Char} (h : role.Cuts c) : c = ':' ∨ isBlank c = true := by
  cases role with
  | literal => cases h
  | name => exact h
  | constraint => exact .inr h

/-- the texts of a token -/
inductive Token.HasText : Token → Role → Text → Prop
  | literal (t : Text) : HasText (.literal t) .literal t
  | name (n : Text) (k : Option Text) : HasText (.parameter n k) .name n
  | constraint (n k : Text) : HasText (.parameter n (some k)) .constraint k

/-- a text of a token, with what stands in front of it and behind it -/
structure Part where
  role : Role
  before : Text
  text : Text
  after : Text
deriving DecidableEq, Repr

namespace Part

def whole (p : Part) : Text := p.before ++ (p.text ++ p.after)

def within (p : Part) (front back : Text) : Part := ⟨p.role, front ++ p.before, p.text, p.after ++ back⟩

/-- the character that comes behind so much text is one of the part -/
def Holds (p : Part) (before : Text) : Prop :=
  p.before.length ≤ before.length ∧ before.length < p.before.length + p.text.length

/-- the pair stays together in the part -/
def Keeps (p : Part) (before : Text) (c : Char) (after : Text) : Prop :=
  ∃ b a, IsPair p.text b c a ∧ before = p.before ++ b ∧ after = a ++ p.after

/-- the backslash of the pair is the end of the part, and its character comes behind -/
def Tears (p : Part) (before : Text) (c : Char) (after : Text) : Prop :=
  before ++ ['\\'] = p.before ++ p.text ∧ c :: after = p.after

/-- the part ends in the middle of a pair -/
def IsTorn (p : Part) : Prop := ∃ before c after, IsPair p.whole before c after ∧ p.Tears before c after

variable {p : Part}

/-- **A pair that begins in a part is kept or torn**, if no pair reaches into the part from the front -/
theorem keeps_or_tears (haligned : dangles p.before = false) {before after : Text} {c : Char}
    (h : IsPair p.whole before c after) (hholds : p.Holds before) : p.Keeps before c after ∨ p.Tears before c after := by
  obtain ⟨hfront, hend⟩ := hholds
  rcases (isPair_append_iff haligned).1 h with ⟨a, hpair, -⟩ | ⟨b, hpair, rfl⟩
  · have := hpair.length_eq
    omega
  · rcases hpair.cases_append with ⟨a, hinside, rfl⟩ | ⟨htext, hafter⟩ | ⟨more, rfl, -⟩
    · exact .inl ⟨b, a, hinside, rfl, rfl⟩
    · exact .inr ⟨by rw [htext, List.append_assoc], hafter.symm⟩
    · simp only [List.length_append] at hend
      omega

theorem Keeps.length_lt {before after : Text} {c : Char} (h : p.Keeps before c after) :
    before.length + 1 < p.before.length + p.text.length := by
  obtain ⟨b, a, hpair, rfl, -⟩ := h
  have := hpair.length_eq
  rw [List.length_append]
  omega

theorem Tears.length_eq {before after : Text} {c : Char} (h : p.Tears before c after) :
    before.length + 1 = p.before.length + p.text.length := by
  simpa using congrArg List.length h.1

/-- **A part dangles when it is torn**, or when what it is a part of ends with it and dangles -/
theorem dangles_iff (haligned : dangles p.before = false) :
    dangles p.text = true ↔ p.IsTorn ∨ p.after = [] ∧ dangles p.whole = true := by
  constructor
  · intro h
    cases hafter : p.after with
    | nil =>
      refine .inr ⟨rfl, ?_⟩
      rw [whole, dangles_append haligned, hafter, List.append_nil, h]
    | cons c after =>
      obtain ⟨u, hu, hdangles⟩ := exists_of_dangles h
      refine .inl ⟨p.before ++ u, c, after, ⟨?_, (dangles_append haligned u).trans hdangles⟩, ?_, hafter.symm⟩
      · simp [whole, hu, hafter]
      · rw [hu, List.append_assoc]
  · rintro (⟨before, c, after, hpair, htears, -⟩ | ⟨hafter, hdangles⟩)
    · rw [← dangles_append haligned, ← htears]
      exact dangles_append_backslash hpair.aligned
    · rwa [whole, dangles_append haligned, hafter, List.append_nil] at hdangles

end Part

/-- where the texts of a token stand in the stretch that makes it -/
inductive PartOf : List Segment → Token → Part → Prop
  | literal {stretch : List Segment} (hne : stretch ≠ []) :
    PartOf stretch (.literal (stretch.flatMap Segment.text)) ⟨.literal, [], stretch.flatMap Segment.text, []⟩
  | name {inner front n : Text} {behind : Option Text} (hcut : inner.cutAt ':' = (front, behind)) (hn : front.trim = n)
    (k : Option Text) : PartOf [.braces inner] (.parameter n k)
      ⟨.name, '{' :: blanksBefore front, n, blanksBehind front ++ behind.elim [] (':' :: ·) ++ ['}']⟩
  | constraint {inner front behind k : Text} (hcut : inner.cutAt ':' = (front, some behind)) (hk : behind.trim = k) (n : Text) :
    PartOf [.braces inner] (.parameter n (some k))
      ⟨.constraint, '{' :: (front ++ ':' :: blanksBefore behind), k, blanksBehind behind ++ ['}']⟩

/-- where the texts of the tokens stand in the template that is cut into the stretches -/
inductive HasPart : List (List Segment) → List Token → Part → Prop
  | here {stretch : List Segment} {token : Token} {p : Part} (h : PartOf stretch token p)
    (stretches : List (List Segment)) (tokens : List Token) :
    HasPart (stretch :: stretches) (token :: tokens) (p.within [] (stretches.flatten.flatMap Segment.text))
  | later (stretch : List Segment) (token : Token) {stretches : List (List Segment)} {tokens : List Token} {p : Part}
    (h : HasPart stretches tokens p) :
    HasPart (stretch :: stretches) (token :: tokens) (p.within (stretch.flatMap Segment.text) [])

theorem eq_append_of_cutAt {inner front : Text} {behind : Option Text} (h : inner.cutAt ':' = (front, behind)) :
    inner = front ++ behind.elim [] (':' :: ·) := by
  have hsplit := Text.cutAt_append ':' inner
  rw [h] at hsplit
  cases behind <;> exact hsplit

theorem PartOf.whole_eq {stretch : List Segment} {token : Token} {p : Part} (h : PartOf stretch token p) :
    p.whole = stretch.flatMap Segment.text := by
  cases h with
  | literal => simp [Part.whole]
  | @name inner front n behind hcut hn k =>
    subst hn
    simp [Part.whole, Segment.text, eq_append_of_cutAt hcut, trim_split_append]
  | @constraint inner front behind k hcut hk n =>
    subst hk
    simp [Part.whole, Segment.text, eq_append_of_cutAt hcut, trim_split_append]

theorem HasPart.whole_eq {stretches : List (List Segment)} {tokens : List Token} {p : Part} (h : HasPart stretches tokens p) :
    p.whole = stretches.flatten.flatMap Segment.text := by
  induction h with
  | here h stretches tokens =>
    rw [List.flatten_cons, List.flatMap_append, ← h.whole_eq]
    simp [Part.whole, Part.within]
  | later stretch token _ ih =>
    rw [List.flatten_cons, List.flatMap_append, ← ih]
    simp [Part.whole, Part.within]

/-! ## Every backslash stands in one part -/

/-- a character does not stand in a stretch of text that lacks it -/
theorem not_within {x y z before rest : Text} {c : Char} (hc : c ∉ y) (h : x ++ (y ++ z) = before ++ c :: rest) :
    ¬(x.length ≤ before.length ∧ before.length < x.length + y.length) := by
  rintro ⟨hx, hy⟩
  have hget : (x ++ (y ++ z))[before.length]? = some c := by simp [h]
  rw [List.getElem?_append_right hx, List.getElem?_append_left (by omega)] at hget
  exact hc (List.mem_of_getElem? hget)

/-- a backslash does not stand in front of a part when there is none there -/
theorem Part.length_before_le {p : Part} (hbefore : '\\' ∉ p.before) {before rest : Text}
    (h : p.whole = before ++ '\\' :: rest) : p.before.length ≤ before.length := by
  have hfront := not_within (x := []) hbefore h
  rw [List.length_nil] at hfront
  omega

/-- nor behind it -/
theorem Part.length_before_lt {p : Part} (hafter : '\\' ∉ p.after) {before rest : Text}
    (h : p.whole = before ++ '\\' :: rest) : before.length < p.before.length + p.text.length := by
  have hback := not_within (x := p.before ++ p.text) (z := []) hafter (by simpa [Part.whole] using h)
  have hlength := congrArg List.length h
  simp only [Part.whole, List.length_append, List.length_cons] at hback hlength
  omega

theorem exists_partOf {stretch : List Segment} {token : Token} (h : Makes stretch token) {before rest : Text}
    (hwhole : stretch.flatMap Segment.text = before ++ '\\' :: rest) : ∃ p, PartOf stretch token p ∧ p.Holds before := by
  cases h with
  | literal hne hliteral =>
    refine ⟨_, .literal hne, Nat.zero_le _, ?_⟩
    simp [hwhole]
  | @parameter inner hquantifier hname =>
    cases hcut : inner.cutAt ':' with
    | mk front behind =>
      have hname := PartOf.name hcut rfl (constraintOf behind)
      have hsplit := hname.whole_eq.trans hwhole
      have hclose : ∀ t : Text, '\\' ∉ blanksBehind t := fun t => not_mem_of_blank fun c => isBlank_of_mem_behind
      have hopen : ∀ t : Text, '\\' ∉ blanksBefore t := fun t => not_mem_of_blank fun c => isBlank_of_mem_before
      have hstart := Part.length_before_le (by simpa using hopen front) hsplit
      cases behind with
      | none => exact ⟨_, hname, hstart, Part.length_before_lt (by simpa using hclose front) hsplit⟩
      | some behind =>
        by_cases hblank : behind.trim = []
        · have hbehind := not_mem_of_blank (trim_eq_nil_iff.1 hblank)
          exact ⟨_, hname, hstart, Part.length_before_lt (by simpa using ⟨hclose front, hbehind⟩) hsplit⟩
        · -- the colon and the blanks between name and constraint are no backslashes either
          have hconstraint := PartOf.constraint hcut rfl front.trim
          have hend := Part.length_before_lt (by simpa using hclose behind) (hconstraint.whole_eq.trans hwhole)
          have hbetween := not_within (x := '{' :: (blanksBefore front ++ front.trim))
            (y := blanksBehind front ++ ':' :: blanksBefore behind) (z := behind.trim ++ (blanksBehind behind ++ ['}']))
            (c := '\\') (by simpa using ⟨hclose front, hopen behind⟩)
            (by rw [← hsplit]; simp [Part.whole, trim_split_append])
          by_cases hholds : before.length < ('{' :: (blanksBefore front ++ front.trim)).length
          · exact ⟨_, hname, hstart, by simpa [Nat.add_right_comm] using hholds⟩
          · have hfront := congrArg List.length (trim_split front)
            simp only [List.length_append, List.length_cons] at hfront hbetween hholds
            refine ⟨_, by rw [constraintOf, if_neg hblank]; exact hconstraint, ?_, hend⟩
            simp only [List.length_append, List.length_cons]
            omega

/-- **Every backslash of a template stands in a part** -/
theorem exists_part {stretches : List (List Segment)} {tokens : List Token} (h : List.Forall₂ Makes stretches tokens)
    {before rest : Text} (hwhole : stretches.flatten.flatMap Segment.text = before ++ '\\' :: rest) :
    ∃ p, HasPart stretches tokens p ∧ p.Holds before := by
  induction h generalizing before with
  | nil => simp at hwhole
  | @cons stretch token stretches tokens hmakes _ ih =>
    rw [List.flatten_cons, List.flatMap_append] at hwhole
    rcases append_cons_cases hwhole with ⟨rest, hstretch⟩ | ⟨b, rfl, hrest⟩
    · obtain ⟨p, hp, hholds⟩ := exists_partOf hmakes hstretch
      exact ⟨_, .here hp stretches tokens, hholds⟩
    · obtain ⟨p, hp, hholds⟩ := ih hrest
      refine ⟨_, .later stretch token hp, ?_⟩
      simp only [Part.Holds, Part.within, List.length_append] at hholds ⊢
      omega

theorem PartOf.unique {stretch : List Segment} {token : Token} {p q : Part} (hp : PartOf stretch token p)
    (hq : PartOf stretch token q) {before : Text} (hp' : p.Holds before) (hq' : q.Holds before) : p = q := by
  -- the name ends in front of the colon, and the constraint begins behind it
  have hdisjoint : ∀ {front n : Text} (behind : Text), front.trim = n →
      before.length < ('{' :: blanksBefore front).length + n.length →
      ¬('{' :: (front ++ ':' :: blanksBefore behind)).length ≤ before.length := by
    rintro front _ behind rfl hend
    have hlength := congrArg List.length (trim_split front)
    simp only [List.length_append, List.length_cons] at hlength hend ⊢
    omega
  cases hp with
  | literal =>
    cases hq
    rfl
  | @name inner front n behind hcut hn k =>
    cases hq with
    | name hcut' hn' _ =>
      obtain ⟨rfl, rfl⟩ := Prod.mk.inj (hcut.symm.trans hcut')
      rfl
    | constraint hcut' hk' _ =>
      obtain ⟨rfl, rfl⟩ := Prod.mk.inj (hcut.symm.trans hcut')
      exact absurd hq'.1 (hdisjoint _ hn hp'.2)
  | @constraint inner front behind k hcut hk n =>
    cases hq with
    | constraint hcut' hk' _ =>
      obtain ⟨rfl, hbehind⟩ := Prod.mk.inj (hcut.symm.trans hcut')
      obtain rfl := Option.some.inj hbehind
      rfl
    | name hcut' hn' _ =>
      obtain ⟨rfl, rfl⟩ := Prod.mk.inj (hcut.symm.trans hcut')
      exact absurd hp'.1 (hdisjoint behind hn' hq'.2)

/-- a part of the first stretch ends where that ends, and the others come behind -/
theorem PartOf.not_holds_later {stretch : List Segment} {token : Token} {p : Part} (hp : PartOf stretch token p)
    {before back : Text} (hholds : (p.within [] back).Holds before) (q : Part) :
    ¬(q.within (stretch.flatMap Segment.text) []).Holds before := by
  have hlength := congrArg List.length hp.whole_eq
  simp only [Part.Holds, Part.within, Part.whole, List.length_append, List.nil_append] at hholds hlength ⊢
  omega

/-- **No two parts share a character** -/
theorem HasPart.unique {stretches : List (List Segment)} {tokens : List Token} {p q : Part} (hp : HasPart stretches tokens p)
    (hq : HasPart stretches tokens q) {before : Text} (hp' : p.Holds before) (hq' : q.Holds before) : p = q := by
  induction hp generalizing before q with
  | @here stretch token p h stretches tokens =>
    cases hq with
    | here h' => exact congrArg (Part.within · [] _) (h.unique h' hp' hq')
    | later _ _ h' => exact absurd hq' (h.not_holds_later hp' _)
  | @later stretch token stretches tokens p h ih =>
    cases hq with
    | here h' => exact absurd hp' (h'.not_holds_later hq' _)
    | @later _ _ _ _ q h' =>
      have hback : ∀ {p : Part}, (p.within (stretch.flatMap Segment.text) []).Holds before →
          p.Holds (before.drop (stretch.flatMap Segment.text).length) := by
        intro p hholds
        simp only [Part.Holds, Part.within, List.length_append, List.length_drop] at hholds ⊢
        omega
      rw [ih h' (hback hp') (hback hq')]

/-! ## What is cut off -/

/-- where a part is in a template: its stretch, and those around it -/
theorem HasPart.exists_within {stretches : List (List Segment)} {tokens : List Token} {p : Part}
    (h : HasPart stretches tokens p) : ∃ front stretch back token q, stretches = front ++ stretch :: back ∧
      PartOf stretch token q ∧ p = q.within (front.flatten.flatMap Segment.text) (back.flatten.flatMap Segment.text) := by
  induction h with
  | @here stretch token p h stretches tokens => exact ⟨[], stretch, stretches, token, p, rfl, h, rfl⟩
  | @later stretch token stretches tokens p h ih =>
    obtain ⟨front, stretch', back, token', q, rfl, hq, rfl⟩ := ih
    refine ⟨stretch :: front, stretch', back, token', q, rfl, hq, ?_⟩
    simp [Part.within]

variable {t : Text} {stretches : List (List Segment)} {tokens : List Token} {p : Part}

theorem PartOf.aligned {stretch : List Segment} {token : Token} (h : PartOf stretch token p) : dangles p.before = false := by
  cases h with
  | literal => rfl
  | @name inner front n behind _ _ _ =>
    apply dangles_of_not_mem
    simpa using not_mem_of_blank fun c => isBlank_of_mem_before (t := front)
  | @constraint inner front behind k _ _ _ =>
    -- the last character in front is the colon or a blank
    have hfront : dangles ('{' :: (front ++ [':'])) = false := dangles_append_of_ne (by decide) ('{' :: front)
    have hblank := dangles_of_not_mem (not_mem_of_blank fun c => isBlank_of_mem_before (t := behind))
    have hsplit : '{' :: (front ++ ':' :: blanksBefore behind) = '{' :: (front ++ [':']) ++ blanksBefore behind := by simp
    exact (congrArg dangles hsplit).trans ((dangles_append hfront _).trans hblank)

theorem PartOf.stretch_ne_nil {stretch : List Segment} {token : Token} (h : PartOf stretch token p) : stretch ≠ [] := by
  cases h with
  | literal hne => exact hne
  | name | constraint => exact List.cons_ne_nil _ _

/-- **No pair reaches into a part from the front** -/
theorem HasPart.aligned (hscan : Scans t stretches.flatten) (h : HasPart stretches tokens p) : dangles p.before = false := by
  obtain ⟨front, stretch, back, token, q, rfl, hq, rfl⟩ := h.exists_within
  rw [List.flatten_append, List.flatten_cons] at hscan
  exact (dangles_append (dangles_of_scans hscan (by simp [hq.stretch_ne_nil])) q.before).trans hq.aligned

/-- between braces what reaches up to the closing brace does not dangle, or the brace would be escaped -/
theorem PartOf.dangles_eq {inner : Text} {token : Token} (h : PartOf [.braces inner] token p) (hinner : Balances inner)
    (hafter : p.after = ['}']) : dangles p.text = false := by
  have hwhole : p.before ++ (p.text ++ p.after) = '{' :: inner ++ ['}'] := h.whole_eq.trans (by simp [Segment.text])
  rw [hafter, ← List.append_assoc] at hwhole
  rw [← dangles_append h.aligned, List.append_cancel_right hwhole, dangles_cons (by decide), hinner.dangles_eq]

/-- what stands behind a text that dangles, in the stretch that makes its token -/
theorem PartOf.after_cases {stretch : List Segment} {token : Token} (h : PartOf stretch token p)
    (hbraces : ∀ inner, .braces inner ∈ stretch → Balances inner) (hdangles : dangles p.text = true) :
    (p.role = .literal ∧ p.text = stretch.flatMap Segment.text ∧ p.after = []) ∨
      ∃ c rest, p.after = c :: rest ∧ p.role.Cuts c := by
  cases h with
  | literal hne => exact .inl ⟨rfl, rfl, rfl⟩
  | @name inner front n behind hcut hn k =>
    have hclosed := (PartOf.name hcut hn k).dangles_eq (hbraces inner List.mem_cons_self)
    cases hblanks : blanksBehind front with
    | cons c more => exact .inr ⟨c, _, rfl, .inr (isBlank_of_mem_behind (hblanks ▸ List.mem_cons_self))⟩
    | nil =>
      cases behind with
      | some behind => exact .inr ⟨':', _, rfl, .inl rfl⟩
      | none =>
        rw [hclosed (by rw [hblanks]; rfl)] at hdangles
        cases hdangles
  | @constraint inner front behind k hcut hk n =>
    have hclosed := (PartOf.constraint hcut hk n).dangles_eq (hbraces inner List.mem_cons_self)
    cases hblanks : blanksBehind behind with
    | cons c more => exact .inr ⟨c, _, rfl, isBlank_of_mem_behind (hblanks ▸ List.mem_cons_self)⟩
    | nil =>
      rw [hclosed (by rw [hblanks]; rfl)] at hdangles
      cases hdangles

/-- **Only colons and blanks are cut off behind half of a pair**; but for the end of the template, no literal ends in one -/
theorem HasPart.after_cases (hscan : Scans t stretches.flatten) (h : HasPart stretches tokens p)
    (hdangles : dangles p.text = true) :
    (p.role = .literal ∧ p.after = []) ∨ ∃ c rest, p.after = c :: rest ∧ p.role.Cuts c := by
  obtain ⟨front, stretch, back, token, q, rfl, hq, rfl⟩ := h.exists_within
  have hbraces : ∀ inner, .braces inner ∈ stretch → Balances inner := by
    intro inner hinner
    exact hscan.balances_of_mem (List.mem_flatten.2 ⟨stretch, by simp, hinner⟩)
  rcases hq.after_cases hbraces hdangles with ⟨hrole, htext, hafter⟩ | ⟨c, rest, hafter, hcuts⟩
  · refine .inl ⟨hrole, ?_⟩
    by_cases hback : back.flatten = []
    · simp [Part.within, hafter, hback]
    · -- a stretch in front of another one does not dangle
      have hsplit : (front ++ stretch :: back).flatten = (front.flatten ++ stretch) ++ back.flatten := by simp
      rw [hsplit] at hscan
      have hstretch := dangles_of_scans hscan hback
      rw [List.append_assoc] at hscan
      rw [List.flatMap_append, dangles_append (dangles_of_scans hscan (by simp [hq.stretch_ne_nil])), ← htext] at hstretch
      rw [show dangles q.text = true from hdangles] at hstretch
      cases hstretch
  · exact .inr ⟨c, rest ++ back.flatten.flatMap Segment.text, by simp [Part.within, hafter], hcuts⟩

/-- what makes tokens has no brace that nothing closes -/
theorem unclosed_not_mem (h : List.Forall₂ Makes stretches tokens) (rest : Text) : .unclosed rest ∉ stretches.flatten := by
  induction h with
  | nil => exact List.not_mem_nil
  | @cons stretch token stretches tokens hmakes _ ih =>
    rw [List.flatten_cons, List.mem_append, not_or]
    refine ⟨fun hmem => ?_, ih⟩
    cases hmakes with
    | literal hne hliteral => exact hliteral _ hmem
    | parameter hquantifier hname => simp at hmem

/-! ## The texts of the tokens -/

theorem PartOf.hasText {stretch : List Segment} {token : Token} (h : PartOf stretch token p) : token.HasText p.role p.text := by
  cases h with
  | literal hne => exact .literal _
  | name hcut hn k => exact .name _ k
  | constraint hcut hk n => exact .constraint n _

theorem exists_partOf_of_hasText {stretch : List Segment} {token : Token} (h : Makes stretch token) {role : Role} {u : Text}
    (hu : token.HasText role u) : ∃ p, PartOf stretch token p ∧ p.role = role ∧ p.text = u := by
  cases h with
  | literal hne hliteral =>
    cases hu
    exact ⟨_, .literal hne, rfl, rfl⟩
  | @parameter inner hquantifier hname =>
    cases hcut : inner.cutAt ':' with
    | mk front behind =>
      rw [hcut] at hu
      generalize hconstraint : constraintOf behind = k at hu ⊢
      cases hu with
      | name => exact ⟨_, .name hcut rfl k, rfl, rfl⟩
      | constraint =>
        obtain ⟨behind, rfl, htrim⟩ := trim_of_constraintOf hconstraint
        exact ⟨_, .constraint hcut htrim _, rfl, rfl⟩

theorem exists_part_of_hasText (h : List.Forall₂ Makes stretches tokens) {token : Token} (htoken : token ∈ tokens) {role : Role}
    {u : Text} (hu : token.HasText role u) : ∃ p, HasPart stretches tokens p ∧ p.role = role ∧ p.text = u := by
  induction h with
  | nil => cases htoken
  | @cons stretch next stretches tokens hmakes _ ih =>
    rcases List.mem_cons.1 htoken with rfl | htoken
    · obtain ⟨p, hp, hrole, htext⟩ := exists_partOf_of_hasText hmakes hu
      exact ⟨_, .here hp stretches tokens, hrole, htext⟩
    · obtain ⟨p, hp, hrole, htext⟩ := ih htoken
      exact ⟨_, .later stretch next hp, hrole, htext⟩

theorem HasPart.hasText (h : HasPart stretches tokens p) : ∃ token ∈ tokens, token.HasText p.role p.text := by
  induction h with
  | here h stretches tokens => exact ⟨_, List.mem_cons_self, h.hasText⟩
  | later stretch token _ ih =>
    obtain ⟨next, hnext, htext⟩ := ih
    exact ⟨next, List.mem_cons_of_mem token hnext, htext⟩

/-- **The parts are the texts of the tokens** -/
theorem hasText_iff (h : List.Forall₂ Makes stretches tokens) {role : Role} {u : Text} :
    (∃ token ∈ tokens, token.HasText role u) ↔ ∃ p, HasPart stretches tokens p ∧ p.role = role ∧ p.text = u := by
  constructor
  · rintro ⟨token, htoken, hu⟩
    exact exists_part_of_hasText h htoken hu
  · rintro ⟨p, hp, rfl, rfl⟩
    exact hp.hasText

end UriRouting.Template
