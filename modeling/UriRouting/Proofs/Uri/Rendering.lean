/-
What a rendered URI says. A placeholder without a value is one whose name is not given, stands for no value, or was taken by
an earlier placeholder; the first of them is the failure (`fill_error_iff`). Without one, the path is the literal text and
the values in the order of the tokens, and the parameters that no placeholder is named after are left (`fill_ok`). They go
into the query, from which their pairs can be read back (`query_cases`).

`render_spec` puts this together for every token list and all parameters.
-/
import UriRouting.Uri.Render
import UriRouting.Proofs.Results
import UriRouting.Proofs.Query.Decoding

namespace UriRouting.Uri

open Template Results

/-! ## What a URI is to say -/

def Lacks (parameters : Parameters) (name : Text) : Prop :=
  parameters.lookup name = none ∨ parameters.lookup name = some .absent

/-- the token, after those before it, is a placeholder of the name and without a value -/
def Unresolved (parameters : Parameters) (before : List Token) (token : Token) (name : Text) : Prop :=
  token.name? = some name ∧ (Lacks parameters name ∨ name ∈ Template.names before)

/-- the first placeholder without a value has the name -/
def FirstUnresolved (parameters : Parameters) (tokens : List Token) (name : Text) : Prop :=
  ∃ before token after, tokens = before ++ token :: after ∧
    (∀ earlier t later n, before = earlier ++ t :: later → ¬Unresolved parameters earlier t n) ∧
    Unresolved parameters before token name

/-- the text of a token: its own, or the value of its name -/
def spell (parameters : Parameters) : Token → Text
  | .literal t => t
  | .parameter name _ => ((parameters.lookup name).map Value.inUri).getD []

/-- the pairs that a parameter without a placeholder stands for: none without a value, one for each item of a sequence -/
def queryPairs : Text × Value → List (Text × Text)
  | (_, .absent) => []
  | (key, .list items) => items.map fun v => (key, v.inUri)
  | (key, .tuple items) => items.map fun v => (key, v.inUri)
  | (key, v) => [(key, v.inUri)]

/-- the pairs of all parameters without a placeholder, in order -/
def leftover (tokens : List Token) (parameters : Parameters) : List (Text × Text) :=
  (parameters.filter fun p => p.1 ∉ Template.names tokens).flatMap queryPairs

/-- the answer is the URI for the tokens and the parameters, or the name of the first placeholder without a value -/
structure Renders (tokens : List Token) (parameters : Parameters) (answer : Except Text Text) : Prop where
  fails_iff : ∀ name, answer = .error name ↔ FirstUnresolved parameters tokens name
  written : ∀ uri, answer = .ok uri → ∃ tail, uri = tokens.flatMap (spell parameters) ++ tail ∧
    (tail = [] ∧ leftover tokens parameters = [] ∨
      ∃ q, tail = '?' :: q ∧ FormEncoding.decode? q = some (leftover tokens parameters))

/-! ## Taking values -/

def without (parameters : Parameters) (name : Text) : Parameters := parameters.filter fun p => p.1 ≠ name

theorem lookup_without (parameters : Parameters) (name n : Text) :
    (without parameters name).lookup n = if n = name then none else parameters.lookup n := by
  induction parameters with
  | nil => simp [without]
  | cons p parameters ih =>
    by_cases hp : p.1 = name
    · have hskip : without (p :: parameters) name = without parameters name := List.filter_cons_of_neg (by simp [hp])
      rw [hskip, ih, List.lookup_cons]
      split
      · rfl
      · rename_i hn
        rw [beq_eq_false_iff_ne.2 (hp ▸ hn)]
    · have hkeep : without (p :: parameters) name = p :: without parameters name := List.filter_cons_of_pos (by simp [hp])
      rw [hkeep, List.lookup_cons, ih, List.lookup_cons]
      by_cases hn : n = p.1
      · rw [beq_iff_eq.2 hn]
        exact (if_neg (hn ▸ hp)).symm
      · rw [beq_eq_false_iff_ne.2 hn]

theorem fill_parameter {parameters : Parameters} {n : Text} {v : Value} (hlookup : parameters.lookup n = some v)
    (hv : v ≠ .absent) (constraint : Option Text) (tokens : List Token) :
    fill parameters (.parameter n constraint :: tokens) =
      (fill (without parameters n) tokens).map fun x => (v.inUri ++ x.1, x.2) := by
  rw [fill, hlookup]
  cases v with
  | absent => exact absurd rfl hv
  | _ => rfl

theorem fill_parameter_error {parameters : Parameters} {n : Text}
    (h : Lacks parameters n) (constraint : Option Text) (tokens : List Token) :
    fill parameters (.parameter n constraint :: tokens) = .error n := by
  rcases h with h | h
  · rw [fill, h]
  · rw [fill, h]

theorem lacks_or_exists (parameters : Parameters) (n : Text) :
    Lacks parameters n ∨ ∃ v, parameters.lookup n = some v ∧ v ≠ .absent := by
  cases hlookup : parameters.lookup n with
  | none => exact .inl (.inl hlookup)
  | some v =>
    by_cases hv : v = .absent
    · exact .inl (.inr (hv ▸ hlookup))
    · exact .inr ⟨v, rfl, hv⟩

theorem not_lacks {parameters : Parameters} {n : Text} {v : Value} (hlookup : parameters.lookup n = some v)
    (hv : v ≠ .absent) : ¬Lacks parameters n := by
  simp [Lacks, hlookup, hv]

theorem lacks_without {parameters : Parameters} {name n : Text} :
    Lacks (without parameters name) n ↔ n = name ∨ Lacks parameters n := by
  rw [Lacks, Lacks, lookup_without]
  by_cases h : n = name
  · simp [h]
  · simp [h]

/-! ## The first failure -/

theorem unresolved_literal {parameters : Parameters} {before : List Token} {text name : Text} :
    ¬Unresolved parameters before (.literal text) name := fun h => nomatch h.1

/-- behind a placeholder, its name has no value any more -/
theorem unresolved_cons_parameter {parameters : Parameters} {before : List Token} {token : Token} {n name : Text}
    {constraint : Option Text} : Unresolved parameters (.parameter n constraint :: before) token name ↔
      Unresolved (without parameters n) before token name := by
  have hnames : Template.names (.parameter n constraint :: before) = n :: Template.names before := rfl
  rw [Unresolved, Unresolved, lacks_without, hnames, List.mem_cons]
  tauto

theorem unresolved_cons_literal {parameters : Parameters} {before : List Token} {token : Token} {text name : Text} :
    Unresolved parameters (.literal text :: before) token name ↔ Unresolved parameters before token name := Iff.rfl

/-- the first failure is that of the first token, or, when this one has none, the first one behind it -/
theorem firstUnresolved_cons {parameters rest : Parameters} {token : Token} {tokens : List Token} {name : Text}
    (hrest : ∀ before t n, Unresolved parameters (token :: before) t n ↔ Unresolved rest before t n) :
    FirstUnresolved parameters (token :: tokens) name ↔ Unresolved parameters [] token name ∨
      (∀ n, ¬Unresolved parameters [] token n) ∧ FirstUnresolved rest tokens name := by
  refine ⟨?_, ?_⟩
  · intro h
    obtain ⟨before, t, after, hsplit, hbefore, ht⟩ := h
    cases before with
    | nil =>
      obtain ⟨rfl, rfl⟩ := List.cons.inj hsplit
      exact .inl ht
    | cons u before =>
      obtain ⟨rfl, rfl⟩ := List.cons.inj hsplit
      refine .inr ⟨fun n => hbefore [] token before n rfl, before, t, after, rfl, ?_, (hrest _ _ _).1 ht⟩
      intro earlier s later n hs hu
      exact hbefore (token :: earlier) s later n (by rw [hs]; rfl) ((hrest _ _ _).2 hu)
  · intro h
    rcases h with h | ⟨hfirst, before, t, after, rfl, hbefore, ht⟩
    · exact ⟨[], token, tokens, rfl, by simp, h⟩
    · refine ⟨token :: before, t, after, rfl, ?_, (hrest _ _ _).2 ht⟩
      intro earlier s later n hs hu
      cases earlier with
      | nil =>
        obtain ⟨rfl, -⟩ := List.cons.inj hs
        exact hfirst n hu
      | cons u earlier =>
        obtain ⟨rfl, hs'⟩ := List.cons.inj hs
        exact hbefore earlier s later n hs' ((hrest _ _ _).1 hu)

/-- **Rendering fails with the first placeholder without a value**, and only then -/
theorem fill_error_iff {parameters : Parameters} {tokens : List Token} {name : Text} :
    fill parameters tokens = .error name ↔ FirstUnresolved parameters tokens name := by
  induction tokens generalizing parameters with
  | nil => simp [fill, FirstUnresolved]
  | cons token tokens ih =>
    cases token with
    | literal text =>
      rw [firstUnresolved_cons fun _ _ _ => unresolved_cons_literal, fill, map_eq_error_iff, ih]
      simp [unresolved_literal]
    | parameter n constraint =>
      rw [firstUnresolved_cons fun _ _ _ => unresolved_cons_parameter]
      have hself : ∀ m, Unresolved parameters [] (.parameter n constraint) m ↔ n = m ∧ Lacks parameters m := by
        simp [Unresolved, Token.name?, Template.names]
      simp only [hself]
      rcases lacks_or_exists parameters n with h | ⟨v, hlookup, hv⟩
      · rw [fill_parameter_error h, Except.error.injEq]
        refine ⟨?_, ?_⟩
        · rintro rfl
          exact .inl ⟨rfl, h⟩
        · rintro (⟨rfl, -⟩ | ⟨hnot, -⟩)
          · rfl
          · exact absurd ⟨rfl, h⟩ (hnot n)
      · have hnot : ∀ m, ¬(n = m ∧ Lacks parameters m) := by
          rintro m ⟨rfl, hm⟩
          exact not_lacks hlookup hv hm
        rw [fill_parameter hlookup hv, map_eq_error_iff, ih]
        simp [hnot]

/-- where no name comes twice, the first failure is the first name without a value -/
theorem firstUnresolved_iff_of_nodup {parameters : Parameters} {tokens : List Token} {name : Text}
    (hdistinct : (Template.names tokens).Nodup) : FirstUnresolved parameters tokens name ↔
      ∃ before after, Template.names tokens = before ++ name :: after ∧ (∀ n ∈ before, ¬Lacks parameters n) ∧
        Lacks parameters name := by
  refine ⟨?_, ?_⟩
  · intro h
    obtain ⟨before, token, after, rfl, hbefore, hname, hlacks⟩ := h
    have hnames : Template.names (before ++ token :: after) = Template.names before ++ name :: Template.names after := by
      rw [Template.names, List.filterMap_append, List.filterMap_cons_some hname]
      rfl
    refine ⟨_, _, hnames, ?_, ?_⟩
    · intro n hn hnone
      obtain ⟨t, ht, htn⟩ := List.mem_filterMap.1 hn
      obtain ⟨earlier, later, rfl⟩ := List.append_of_mem ht
      exact hbefore earlier t later n rfl ⟨htn, .inl hnone⟩
    · rw [hnames, List.nodup_append] at hdistinct
      rcases hlacks with hlacks | htwice
      · exact hlacks
      · exact absurd rfl (hdistinct.2.2 name htwice name List.mem_cons_self)
  · intro h
    obtain ⟨before, after, hnames, hbefore, hlacks⟩ := h
    obtain ⟨front, rest, rfl, rfl, hrest⟩ := List.filterMap_eq_append_iff.1 hnames
    obtain ⟨plain, token, rest, rfl, hplain, hname, -⟩ := List.filterMap_eq_cons_iff.1 hrest
    refine ⟨front ++ plain, token, rest, by simp, ?_, hname, .inl hlacks⟩
    intro earlier t later n hsplit hunresolved
    obtain ⟨htn, hn⟩ := hunresolved
    -- the placeholder is one of those in front, since plain text has no name
    have hfront : Template.names front = Template.names earlier ++ n :: Template.names later := by
      have hskip : Template.names (front ++ plain) = Template.names front := by
        rw [Template.names, List.filterMap_append, List.filterMap_eq_nil_iff.2 hplain, List.append_nil]
        rfl
      rw [← hskip, hsplit, Template.names, List.filterMap_append, List.filterMap_cons_some htn]
      rfl
    have hmem : n ∈ Template.names front := by
      rw [hfront]
      exact List.mem_append_right _ List.mem_cons_self
    rcases hn with hn | htwice
    · exact hbefore n hmem hn
    · have hdistinct' : (Template.names front).Nodup := by
        rw [Template.names, List.filterMap_append] at hdistinct
        exact (List.nodup_append.1 hdistinct).1
      rw [hfront, List.nodup_append] at hdistinct'
      exact hdistinct'.2.2 n htwice n List.mem_cons_self rfl

/-! ## The path and what is left -/

theorem fill_literal_ok {parameters left : Parameters} {text path : Text} {tokens : List Token}
    (h : fill parameters (.literal text :: tokens) = .ok (path, left)) :
    ∃ rest, fill parameters tokens = .ok (rest, left) ∧ path = text ++ rest := by
  obtain ⟨⟨rest, left⟩, hrest, hpair⟩ := map_eq_ok_iff.1 h
  obtain ⟨rfl, rfl⟩ := Prod.mk.inj hpair
  exact ⟨rest, hrest, rfl⟩

theorem fill_parameter_ok {parameters left : Parameters} {n path : Text} {constraint : Option Text}
    {tokens : List Token} (h : fill parameters (.parameter n constraint :: tokens) = .ok (path, left)) :
    ∃ v rest, parameters.lookup n = some v ∧ v ≠ .absent ∧ fill (without parameters n) tokens = .ok (rest, left) ∧
      path = v.inUri ++ rest := by
  rcases lacks_or_exists parameters n with hlacks | ⟨v, hlookup, hv⟩
  · rw [fill_parameter_error hlacks] at h
    cases h
  · rw [fill_parameter hlookup hv] at h
    obtain ⟨⟨rest, left⟩, hrest, hpair⟩ := map_eq_ok_iff.1 h
    obtain ⟨rfl, rfl⟩ := Prod.mk.inj hpair
    exact ⟨v, rest, hlookup, hv, hrest, rfl⟩

/-- a filled template has a value for each of its placeholders -/
theorem not_lacks_of_fill {parameters left : Parameters} {tokens : List Token} {path : Text}
    (h : fill parameters tokens = .ok (path, left)) : ∀ name ∈ Template.names tokens, ¬Lacks parameters name := by
  induction tokens generalizing parameters path with
  | nil =>
    intro name hname
    exact absurd hname List.not_mem_nil
  | cons token tokens ih =>
    cases token with
    | literal text =>
      obtain ⟨rest, hrest, -⟩ := fill_literal_ok h
      exact ih hrest
    | parameter n constraint =>
      obtain ⟨v, rest, hlookup, hv, hrest, -⟩ := fill_parameter_ok h
      intro name hname hlacks
      rcases List.mem_cons.1 hname with rfl | hname
      · exact not_lacks hlookup hv hlacks
      · exact ih hrest name hname (lacks_without.2 (.inr hlacks))

/-- the text of a token without the parameter of another name -/
theorem spell_without {parameters : Parameters} {n : Text} {token : Token} (h : token.name? ≠ some n) :
    spell (without parameters n) token = spell parameters token := by
  cases token with
  | literal text => rfl
  | parameter m constraint =>
    have hm : m ≠ n := fun hm => h (congrArg some hm)
    rw [spell, spell, lookup_without, if_neg hm]

/-- **A filled template**: its text and the values in their order, and the parameters without a placeholder left -/
theorem fill_ok {parameters left : Parameters} {tokens : List Token} {path : Text}
    (h : fill parameters tokens = .ok (path, left)) : path = tokens.flatMap (spell parameters) ∧
      left = parameters.filter fun p => p.1 ∉ Template.names tokens := by
  induction tokens generalizing parameters path with
  | nil =>
    obtain ⟨rfl, rfl⟩ := Prod.mk.inj (Except.ok.inj h)
    simp [Template.names]
  | cons token tokens ih =>
    cases token with
    | literal text =>
      obtain ⟨rest, hrest, rfl⟩ := fill_literal_ok h
      obtain ⟨rfl, hleft⟩ := ih hrest
      exact ⟨rfl, hleft⟩
    | parameter n constraint =>
      obtain ⟨v, rest, hlookup, -, hrest, rfl⟩ := fill_parameter_ok h
      obtain ⟨rfl, rfl⟩ := ih hrest
      -- no later placeholder has the name, or it would lack its value
      have hother : ∀ token ∈ tokens, token.name? ≠ some n := by
        intro token htoken hname
        exact not_lacks_of_fill hrest n (List.mem_filterMap.2 ⟨token, htoken, hname⟩) (lacks_without.2 (.inl rfl))
      have hspell : tokens.flatMap (spell (without parameters n)) = tokens.flatMap (spell parameters) := by
        rw [List.flatMap_def, List.flatMap_def, List.map_congr_left fun token htoken => spell_without (hother token htoken)]
      have hnames : Template.names (.parameter n constraint :: tokens) = n :: Template.names tokens := rfl
      refine ⟨?_, ?_⟩
      · rw [hspell, List.flatMap_cons, spell, hlookup]
        rfl
      · rw [without, List.filter_filter, hnames]
        apply List.filter_congr
        intro p _
        simp [Bool.and_comm]

/-! ## The query -/

theorem queryPairs_eq (p : Text × Value) : queryPairs p = if isPresent p then pairs p else [] := by
  obtain ⟨key, v⟩ := p
  cases v <;> rfl

theorem flatMap_queryPairs (left : Parameters) : left.flatMap queryPairs = (left.filter isPresent).flatMap pairs := by
  induction left with
  | nil => rfl
  | cons p left ih =>
    rw [List.flatMap_cons, ih, queryPairs_eq, List.filter_cons]
    split
    · rfl
    · rfl

/-- **The query** is nothing, and then there are no pairs, or a text from which the pairs are read back -/
theorem query_cases (left : Parameters) : query left = [] ∧ left.flatMap queryPairs = [] ∨
    ∃ q, query left = '?' :: q ∧ FormEncoding.decode? q = some (left.flatMap queryPairs) := by
  rw [flatMap_queryPairs, query]
  split
  · rename_i hnone
    rw [hnone]
    exact .inl ⟨rfl, rfl⟩
  · exact .inr ⟨_, rfl, FormEncoding.decode?_encode _⟩

/-- no URI for the tokens, just where a placeholder has no value -/
theorem render_error_iff {tokens : List Token} {parameters : Parameters} {name : Text} :
    render tokens parameters = .error name ↔ FirstUnresolved parameters tokens name := by
  rw [render, map_eq_error_iff, fill_error_iff]

/-- **What a rendered URI is**, for every token list and all parameters -/
theorem render_spec (tokens : List Token) (parameters : Parameters) :
    Renders tokens parameters (render tokens parameters) where
  fails_iff := fun _ => render_error_iff
  written := by
    intro uri h
    obtain ⟨⟨path, left⟩, hfill, rfl⟩ := map_eq_ok_iff.1 h
    obtain ⟨rfl, rfl⟩ := fill_ok hfill
    exact ⟨_, rfl, query_cases _⟩

end UriRouting.Uri
