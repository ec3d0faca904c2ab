/-
Parameters that add nothing to a URI. An absent value and an empty sequence stand for no pair of the query
(`queryPairs_eq_nil_iff`), and a template that has no placeholder of the name reads nothing of them (`fill_congr`). Still the
question mark is written by what is given, before sequences are taken apart: `Asks` says when. An empty sequence that is the
only one left writes a question mark with nothing behind it.

- `render_eq`: the URI is the path, and behind it the query where the parameters ask for one.
- `render_silent`: what giving such a parameter anywhere among the others changes.
-/
import UriRouting.Proofs.Uri.Rendering

namespace UriRouting.Uri

open Template Results

/-! ## Values without pairs -/

/-- the values that stand for no pair: no value, and the empty sequences -/
inductive IsSilent : Value → Prop
  | absent : IsSilent .absent
  | list : IsSilent (.list [])
  | tuple : IsSilent (.tuple [])

theorem queryPairs_eq_nil_iff {key : Text} {v : Value} : queryPairs (key, v) = [] ↔ IsSilent v := by
  refine ⟨?_, ?_⟩
  · intro h
    cases v with
    | absent => exact .absent
    | list items =>
      obtain rfl := List.map_eq_nil_iff.1 h
      exact .list
    | tuple items =>
      obtain rfl := List.map_eq_nil_iff.1 h
      exact .tuple
    | _ => cases h
  · rintro (_ | _ | _)
    all_goals rfl

/-- a value is given under a name that no placeholder has -/
def Asks (tokens : List Token) (parameters : Parameters) : Prop :=
  ∃ p ∈ parameters, p.1 ∉ Template.names tokens ∧ p.2 ≠ .absent

theorem isPresent_iff {p : Text × Value} : isPresent p = true ↔ p.2 ≠ .absent := by
  obtain ⟨key, v⟩ := p
  cases v <;> simp [isPresent]

theorem asks_iff {tokens : List Token} {parameters : Parameters} : Asks tokens parameters ↔
    (parameters.filter fun p => p.1 ∉ Template.names tokens).filter isPresent ≠ [] := by
  rw [Ne, List.filter_eq_nil_iff]
  simp only [List.mem_filter, isPresent_iff, decide_eq_true_eq, not_forall, not_not, exists_prop, Asks, and_assoc]

instance (tokens : List Token) (parameters : Parameters) : Decidable (Asks tokens parameters) :=
  decidable_of_iff _ asks_iff.symm

/-- an absent value asks for nothing, any other one under a further name does -/
theorem asks_insert_iff {tokens : List Token} {before after : Parameters} {key : Text} {v : Value}
    (hkey : key ∉ Template.names tokens) :
    Asks tokens (before ++ (key, v) :: after) ↔ v ≠ .absent ∨ Asks tokens (before ++ after) := by
  simp only [Asks, List.mem_append, List.mem_cons, or_and_right, exists_or, exists_eq_left, hkey, not_false_eq_true, true_and]
  exact or_left_comm

/-- no pair is left of a silent value -/
theorem leftover_insert (tokens : List Token) (before after : Parameters) (key : Text) {v : Value} (hv : IsSilent v) :
    leftover tokens (before ++ (key, v) :: after) = leftover tokens (before ++ after) := by
  rw [leftover, leftover, List.filter_append, List.filter_append, List.flatMap_append, List.flatMap_append, List.filter_cons]
  split
  · rw [List.flatMap_cons, queryPairs_eq_nil_iff.2 hv, List.nil_append]
  · rfl

theorem leftover_eq_nil_iff {tokens : List Token} {parameters : Parameters} :
    leftover tokens parameters = [] ↔ ∀ p ∈ parameters, p.1 ∉ Template.names tokens → IsSilent p.2 := by
  simp only [leftover, List.flatMap_eq_nil_iff, List.mem_filter, decide_eq_true_eq, and_imp]
  exact forall₃_congr fun _ _ _ => queryPairs_eq_nil_iff

/-! ## The path and the query -/

/-- **The path is told by the values of the placeholders**; whatever else is given, it is the same -/
theorem fill_congr {tokens : List Token} {given given' : Parameters}
    (h : ∀ name ∈ Template.names tokens, given.lookup name = given'.lookup name) :
    (fill given tokens).map Prod.fst = (fill given' tokens).map Prod.fst := by
  have hmap : ∀ (f : Text → Text) (r : Except Text (Text × Parameters)),
      (r.map fun x => (f x.1, x.2)).map Prod.fst = (r.map Prod.fst).map f := by
    intro f r
    cases r <;> rfl
  induction tokens generalizing given given' with
  | nil => rfl
  | cons token tokens ih =>
    cases token with
    | literal text =>
      exact (hmap (text ++ ·) _).trans ((congrArg _ (ih h)).trans (hmap (text ++ ·) _).symm)
    | parameter n constraint =>
      have hn := h n List.mem_cons_self
      rcases lacks_or_exists given n with hlacks | ⟨v, hlookup, hv⟩
      · have hlacks' : Lacks given' n := by
          rwa [Lacks, ← hn]
        rw [fill_parameter_error hlacks, fill_parameter_error hlacks']
      · have hwithout : ∀ name ∈ Template.names tokens,
            (without given n).lookup name = (without given' n).lookup name := by
          intro name hname
          rw [lookup_without, lookup_without, h name (List.mem_cons_of_mem _ hname)]
        rw [fill_parameter hlookup hv, fill_parameter (hn ▸ hlookup) hv, hmap (v.inUri ++ ·), hmap (v.inUri ++ ·),
          ih hwithout]

theorem lookup_insert {before after : Parameters} {key name : Text} (v : Value) (h : name ≠ key) :
    (before ++ (key, v) :: after).lookup name = (before ++ after).lookup name := by
  rw [List.lookup_append, List.lookup_append, List.lookup_cons, beq_eq_false_iff_ne.2 h]

/-- the query that parameters ask for, or nothing -/
def asked (tokens : List Token) (parameters : Parameters) : Text :=
  if Asks tokens parameters then '?' :: FormEncoding.encode (leftover tokens parameters) else []

theorem query_filter (tokens : List Token) (parameters : Parameters) :
    query (parameters.filter fun p => p.1 ∉ Template.names tokens) = asked tokens parameters := by
  rw [asked, query, leftover, flatMap_queryPairs]
  split
  · rename_i hnone
    rw [if_neg fun h => asks_iff.1 h hnone]
  · rename_i hsome
    rw [if_pos (asks_iff.2 hsome)]

/-- **The URI is the path, and behind it the query asked for** -/
theorem render_eq (tokens : List Token) (parameters : Parameters) :
    render tokens parameters = ((fill parameters tokens).map Prod.fst).map (· ++ asked tokens parameters) := by
  rw [render]
  cases hfill : fill parameters tokens with
  | error name => rfl
  | ok filled =>
    obtain ⟨path, left⟩ := filled
    obtain ⟨-, rfl⟩ := fill_ok hfill
    simp only [Except.map, query_filter]

theorem encode_eq_nil_iff {pairs : List (Text × Text)} : FormEncoding.encode pairs = [] ↔ pairs = [] := by
  refine ⟨?_, ?_⟩
  · intro h
    have hread := FormEncoding.decode?_encode pairs
    rw [h] at hread
    exact (Option.some.inj hread).symm
  · rintro rfl
    rfl

/-- nothing stands behind the path just where nothing is asked for -/
theorem asked_eq_nil_iff {tokens : List Token} {parameters : Parameters} :
    asked tokens parameters = [] ↔ ¬Asks tokens parameters := by
  rw [asked]
  split <;> simp [*]

/-- a lone question mark stands for further parameters that are silent, each of them, and not all absent -/
theorem asked_eq_lone_iff {tokens : List Token} {parameters : Parameters} : asked tokens parameters = ['?'] ↔
    Asks tokens parameters ∧ ∀ p ∈ parameters, p.1 ∉ Template.names tokens → IsSilent p.2 := by
  rw [asked, ← leftover_eq_nil_iff, ← encode_eq_nil_iff]
  split <;> simp [*]

/-- a silent value among the others leaves the query as it is, where it is absent or the others ask for one -/
theorem asked_insert {tokens : List Token} {before after : Parameters} {key : Text} {v : Value}
    (hkey : key ∉ Template.names tokens) (hv : IsSilent v) (h : v = .absent ∨ Asks tokens (before ++ after)) :
    asked tokens (before ++ (key, v) :: after) = asked tokens (before ++ after) := by
  have hasks : Asks tokens (before ++ (key, v) :: after) ↔ Asks tokens (before ++ after) := by
    rw [asks_insert_iff hkey]
    tauto
  rw [asked, asked, leftover_insert tokens before after key hv]
  simp only [hasks]

/-- an empty sequence that alone asks for a query writes the question mark, and nothing behind it -/
theorem asked_insert_lone {tokens : List Token} {before after : Parameters} {key : Text} {v : Value}
    (hkey : key ∉ Template.names tokens) (hv : IsSilent v) (hpresent : v ≠ .absent)
    (hothers : ¬Asks tokens (before ++ after)) : asked tokens (before ++ (key, v) :: after) = ['?'] := by
  refine asked_eq_lone_iff.2 ⟨(asks_insert_iff hkey).2 (.inl hpresent), leftover_eq_nil_iff.1 ?_⟩
  rw [leftover_insert tokens before after key hv, leftover_eq_nil_iff]
  intro p hp hname
  by_contra hloud
  refine hothers ⟨p, hp, hname, ?_⟩
  intro habsent
  exact hloud (habsent ▸ .absent)

/-- **Silent parameters**: what giving one anywhere among the others changes, for every token list and all parameters. It
changes nothing when it is absent or when the others ask for a query; an empty sequence that alone asks for one adds a
question mark. A URI has a query just where one is asked for, made of the pairs in their order, and the question mark stands
alone where all further parameters are silent. -/
theorem render_silent (tokens : List Token) :
    (∀ before after key v, key ∉ Template.names tokens → IsSilent v →
      (v = .absent ∨ Asks tokens (before ++ after) →
        render tokens (before ++ (key, v) :: after) = render tokens (before ++ after)) ∧
      (v ≠ .absent → ¬Asks tokens (before ++ after) →
        render tokens (before ++ (key, v) :: after) = (render tokens (before ++ after)).map (· ++ ['?']))) ∧
    ∀ parameters uri, render tokens parameters = .ok uri → ∃ tail, uri = tokens.flatMap (spell parameters) ++ tail ∧
      (¬Asks tokens parameters → tail = []) ∧
      (Asks tokens parameters → tail = '?' :: FormEncoding.encode (leftover tokens parameters)) ∧
      (tail = ['?'] ↔ Asks tokens parameters ∧ ∀ p ∈ parameters, p.1 ∉ Template.names tokens → IsSilent p.2) := by
  refine ⟨?_, ?_⟩
  · intro before after key v hkey hv
    have hpath : (fill (before ++ (key, v) :: after) tokens).map Prod.fst = (fill (before ++ after) tokens).map Prod.fst :=
      fill_congr fun name hname => lookup_insert v (ne_of_mem_of_not_mem hname hkey)
    rw [render_eq, render_eq, hpath]
    refine ⟨?_, ?_⟩
    · intro h
      rw [asked_insert hkey hv h]
    · intro hpresent hothers
      rw [asked_insert_lone hkey hv hpresent hothers, asked_eq_nil_iff.2 hothers]
      cases fill (before ++ after) tokens <;> simp [Except.map]
  · intro parameters uri h
    rw [render_eq] at h
    obtain ⟨path, hpath, rfl⟩ := map_eq_ok_iff.1 h
    obtain ⟨⟨path, left⟩, hfill, rfl⟩ := map_eq_ok_iff.1 hpath
    obtain ⟨rfl, -⟩ := fill_ok hfill
    exact ⟨_, rfl, asked_eq_nil_iff.2, fun hasks => if_pos hasks, asked_eq_lone_iff⟩

/-- an empty sequence between the value of a placeholder and one that asks for the query -/
theorem render_silent_among :
    "page".toList ∉ Template.names [.literal ['/'], .parameter "id".toList none] ∧ IsSilent (.list []) ∧
    Asks [.literal ['/'], .parameter "id".toList none] [("id".toList, .text ['7']), ("q".toList, .text "x y".toList)] ∧
    render [.literal ['/'], .parameter "id".toList none]
      [("id".toList, .text ['7']), ("page".toList, .list []), ("q".toList, .text "x y".toList)] = .ok "/7?q=x+y".toList := by
  refine ⟨by decide, .list, by decide, ?_⟩
  have hsame := ((render_silent [.literal ['/'], .parameter "id".toList none]).1 [("id".toList, .text ['7'])]
    [("q".toList, .text "x y".toList)] "page".toList (.list []) (by decide) .list).1 (.inr (by decide))
  exact hsame.trans (by rfl)

/-- the question mark of an empty sequence that is the only parameter: without it there is none -/
theorem lone_question_mark : "x".toList ∉ Template.names [.literal "/a".toList] ∧ IsSilent (.list []) ∧
    render [.literal "/a".toList] [("x".toList, .list [])] = .ok "/a?".toList ∧
    render [.literal "/a".toList] [] = .ok "/a".toList :=
  ⟨by decide, .list, by rfl, by rfl⟩

end UriRouting.Uri
