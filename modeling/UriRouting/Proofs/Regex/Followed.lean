/-
Matching in front of more text. An expression that looks no further than it reads (`Expr.ignoresEnd`) leads a state with more
text behind it to what it leads the state to without, and to what takes in some of that text; the two do not mix.

- `tracks_iterate`: iterations that have not taken in the text behind are those without it.
- `tracks_outcomes`: the outcomes that leave the text behind untouched are the outcomes without it.
-/
import UriRouting.Proofs.Regex.Bounds

namespace UriRouting.Regex

def State.followed (w : Text) (s : State) : State where
  before := s.before
  after := s.after ++ w
  place := s.place
  captures := s.captures.map fun c => (c.1, ⟨c.2.fromStart ++ w, c.2.fromEnd ++ w⟩)
  place_eq := s.place_eq

/-- does the anchor tell the end of the text from what may stand there? A word ends at either -/
def Anchor.seesEnd : Anchor → Bool
  | textEnd | finalLineEnd | lineEnd => true
  | textStart | lineStart | wordStart | wordEnd | wordBoundary | noWordBoundary => false

/-- the expression has no anchor that sees the end of the text, no look and no atomic group -/
def Expr.ignoresEnd : Expr → Bool
  | empty | char _ | backref _ _ => true
  | anchor a => !a.seesEnd
  | cat a b | alt a b => a.ignoresEnd && b.ignoresEnd
  | group _ e | repeated e _ => e.ignoresEnd
  | atomic _ | look _ _ _ => false

variable {w : Text}

/-! ## Repetitions -/

section

variable {f : State → State} {untouched : State → Prop}

/-- the states of the first list that leave something untouched are the states of the second one without it -/
def Tracks (f : State → State) (untouched : State → Prop) (l' l : List State) : Prop :=
  ∀ v, v ∈ l' ∧ untouched v ↔ ∃ u ∈ l, v = f u

theorem tracks_nil {l' : List State} (h : ∀ v ∈ l', ¬untouched v) : Tracks f untouched l' [] := fun v =>
  ⟨fun ⟨hv, hu⟩ => absurd hu (h v hv), fun ⟨_, hu, _⟩ => absurd hu List.not_mem_nil⟩

theorem tracks_singleton {s : State} (hs : untouched (f s)) : Tracks f untouched [f s] [s] := by
  intro v
  simp only [List.mem_singleton, exists_eq_left]
  exact ⟨And.left, fun h => ⟨h, h ▸ hs⟩⟩

theorem tracks_append {l l' k k' : List State} (hl : Tracks f untouched l' l) (hk : Tracks f untouched k' k) :
    Tracks f untouched (l' ++ k') (l ++ k) := by
  intro v
  simp only [List.mem_append, or_and_right, exists_or, hl v, hk v]

/-- one after the other, where what is touched once stays touched -/
theorem tracks_flatMap {l l' : List State} {g g' : State → List State} (hl : Tracks f untouched l' l)
    (hg : ∀ u ∈ l, Tracks f untouched (g' (f u)) (g u)) (hback : ∀ x ∈ l', ∀ v ∈ g' x, untouched v → untouched x) :
    Tracks f untouched (l'.flatMap g') (l.flatMap g) := by
  intro v
  simp only [List.mem_flatMap]
  constructor
  · rintro ⟨⟨x, hx, hv⟩, hu⟩
    obtain ⟨y, hy, rfl⟩ := (hl x).1 ⟨hx, hback x hx v hv hu⟩
    obtain ⟨u, hmem, rfl⟩ := (hg y hy v).1 ⟨hv, hu⟩
    exact ⟨u, ⟨y, hy, hmem⟩, rfl⟩
  · rintro ⟨u, ⟨y, hy, hmem⟩, rfl⟩
    have hx := ((hl (f y)).2 ⟨y, hy, rfl⟩).1
    obtain ⟨hv, hu⟩ := (hg y hy (f u)).2 ⟨u, hmem, rfl⟩
    exact ⟨⟨f y, hx, hv⟩, hu⟩

namespace Repetition

theorem tracks_order (lazy : Bool) {l l' k k' : List State} (hl : Tracks f untouched l' l) (hk : Tracks f untouched k' k) :
    Tracks f untouched (order lazy l' k') (order lazy l k) := by
  cases lazy
  · exact tracks_append hl hk
  · exact tracks_append hk hl

variable {body : State → List State} (hf : ∀ s, untouched (f s)) (hbody : ∀ s, Tracks f untouched (body (f s)) (body s))
  (hback : ∀ s, ∀ v ∈ body s, untouched v → untouched s)

include hback in
/-- what is touched once stays touched, however many iterations there are -/
theorem untouched_of_iterations {more : State → List State} (hrel : (∀ {R : State → State → Prop}, (∀ s, R s s) →
    (∀ {s t u}, R s t → R t u → R s u) → (∀ s, ∀ t ∈ body s, R s t) → ∀ s, ∀ t ∈ more s, R s t)) (s : State) :
    ∀ v ∈ more s, untouched v → untouched s :=
  hrel (R := fun s t => untouched t → untouched s) (fun _ h => h) (fun h₁ h₂ h => h₁ (h₂ h)) hback s

include hf hbody hback

theorem tracks_times (n : ℕ) (s : State) : Tracks f untouched (times body n (f s)) (times body n s) := by
  induction n generalizing s with
  | zero => exact tracks_singleton (hf s)
  | succ n ih =>
    refine tracks_flatMap (hbody s) (fun u _ => ih u) fun x _ => ?_
    exact untouched_of_iterations hback (fun r t b => rel_of_mem_times r t b n) x

theorem tracks_upTo (lazy : Bool) (n : ℕ) (s : State) : Tracks f untouched (upTo lazy body n (f s)) (upTo lazy body n s) := by
  induction n generalizing s with
  | zero => exact tracks_singleton (hf s)
  | succ n ih =>
    refine tracks_order lazy (tracks_flatMap (hbody s) (fun u _ => ih u) fun x _ => ?_) (tracks_singleton (hf s))
    exact untouched_of_iterations hback (fun r t b => rel_of_mem_upTo r t b lazy n) x

theorem tracks_unlimited {room : State → ℕ} (hroom : ∀ s t, room (f t) < room (f s) ↔ room t < room s) (lazy : Bool)
    (s : State) : Tracks f untouched (unlimited lazy room body (f s)) (unlimited lazy room body s) := by
  fun_induction unlimited lazy room body s with
  | case1 s ih =>
    rw [unlimited]
    refine tracks_order lazy (tracks_flatMap (hbody s) (fun u _ => ?_) fun x _ v hv hu => ?_) (tracks_singleton (hf s))
    · by_cases hlt : room u < room s
      · rw [if_pos hlt, if_pos ((hroom s u).2 hlt)]
        exact ih u hlt
      · rw [if_neg hlt, if_neg (mt (hroom s u).1 hlt)]
        exact tracks_singleton (hf u)
    · split at hv
      · exact untouched_of_iterations hback (fun r t b => rel_of_mem_unlimited r t b lazy room) x v hv hu
      · rwa [← List.mem_singleton.1 hv]

/-- **Iterations that leave something untouched are those without it**, when one iteration is so -/
theorem tracks_iterate {room : State → ℕ} (hroom : ∀ s t, room (f t) < room (f s) ↔ room t < room s) (r : Repetition)
    (s : State) : Tracks f untouched (r.iterate room body (f s)) (r.iterate room body s) := by
  have htimes := tracks_times hf hbody hback r.least s
  cases hm : r.most with
  | some most =>
    rw [iterate_some hm, iterate_some hm]
    refine tracks_flatMap htimes (fun u _ => tracks_upTo hf hbody hback _ _ u) fun x _ => ?_
    exact untouched_of_iterations hback (fun r t b => rel_of_mem_upTo r t b _ _) x
  | none =>
    rw [iterate_none hm, iterate_none hm]
    refine tracks_flatMap htimes (fun u _ => tracks_unlimited hf hbody hback hroom _ u) fun x _ => ?_
    exact untouched_of_iterations hback (fun r t b => rel_of_mem_unlimited r t b _ room) x

end Repetition

/-- a step that commutes with what is behind, and touches nothing -/
theorem tracks_map {l l' : List State} (h : Tracks f untouched l' l) {g g' : State → State} (hg : ∀ u, g' (f u) = f (g u))
    (hu : ∀ v, untouched (g' v) ↔ untouched v) : Tracks f untouched (l'.map g') (l.map g) := by
  intro v
  simp only [List.mem_map]
  constructor
  · rintro ⟨⟨x, hx, rfl⟩, hv⟩
    obtain ⟨u, hmem, rfl⟩ := (h x).1 ⟨hx, (hu x).1 hv⟩
    exact ⟨g u, ⟨u, hmem, rfl⟩, hg u⟩
  · rintro ⟨_, ⟨u, hmem, rfl⟩, rfl⟩
    obtain ⟨hx, hv⟩ := (h (f u)).2 ⟨u, hmem, rfl⟩
    exact ⟨⟨f u, hx, hg u⟩, hg u ▸ (hu (f u)).2 hv⟩

end

/-! ## Expressions -/

/-- all of the text behind is still to be read -/
def Untouched (w : Text) (s : State) : Prop := w.length ≤ s.after.length

namespace State

theorem untouched_followed (w : Text) (s : State) : Untouched w (s.followed w) := by
  rw [Untouched, followed, List.length_append]
  exact Nat.le_add_left _ _

theorem untouched_of_onward {s t : State} (h : Onward .forward s t) (ht : Untouched w t) : Untouched w s :=
  ht.trans (Program.room_le_of_onward h)

theorem text?_followed (w : Text) (s : State) (n : ℕ) : (s.followed w).captures.text? n = s.captures.text? n := by
  have htext : ∀ c : Capture, Capture.text ⟨c.fromStart ++ w, c.fromEnd ++ w⟩ = c.text := by
    intro c
    simp only [Capture.text, List.length_append, Nat.add_sub_add_right]
    exact List.take_append_of_le_length (Nat.sub_le _ _)
  simp only [followed, Captures.text?]
  generalize s.captures = cs
  induction cs with
  | nil => rfl
  | cons c cs ih =>
    obtain ⟨m, c⟩ := c
    simp only [List.map_cons, List.lookup_cons]
    cases n == m with
    | true => exact congrArg some (htext c)
    | false => exact ih

theorem capture_followed (w : Text) (s u : State) (n : ℕ) :
    (u.followed w).capture n .forward (s.followed w) = (u.capture n .forward s).followed w := by
  simp only [capture, followed, Captures.set, Direction.taken, List.map_cons, List.filter_map, Function.comp_def]

/-- the next character is the same, or lies in the text behind -/
theorem read_followed (w : Text) (s : State) :
    (∃ c t, Direction.forward.read s = some (c, t) ∧ Direction.forward.read (s.followed w) = some (c, t.followed w)) ∨
      Direction.forward.read s = none ∧
        ∀ c t, Direction.forward.read (s.followed w) = some (c, t) → ¬Untouched w t := by
  obtain ⟨before, after, place, cs, hplace⟩ := s
  cases after with
  | cons c after => exact .inl ⟨c, _, rfl, rfl⟩
  | nil =>
    refine .inr ⟨rfl, ?_⟩
    intro c t h
    cases w with
    | nil => cases h
    | cons d w =>
      obtain ⟨-, rfl⟩ := Prod.mk.inj (Option.some.inj h)
      exact Nat.not_succ_le_self _

theorem anchor_followed {asciiOnly : Bool} (hw : touchesWord asciiOnly w = false) {a : Anchor} (ha : a.seesEnd = false)
    (s : State) : a.holds asciiOnly (s.followed w) = a.holds asciiOnly s := by
  have htouch : touchesWord asciiOnly (s.after ++ w) = touchesWord asciiOnly s.after := by
    cases s.after with
    | nil => exact hw
    | cons c after => rfl
  cases a <;> first | rfl | exact absurd ha (by decide) | simp only [Anchor.holds, followed, htouch]

end State

abbrev TracksUntouched (w : Text) : List State → List State → Prop := Tracks (State.followed w) (Untouched w)

theorem tracks_readText (accepts : Char → Char → Bool) (x : Text) (s : State) : TracksUntouched w
    (Direction.forward.readText accepts x (s.followed w)).toList (Direction.forward.readText accepts x s).toList := by
  induction x generalizing s with
  | nil => exact tracks_singleton (s.untouched_followed w)
  | cons c x ih =>
    rcases s.read_followed w with ⟨d, t, h, h'⟩ | ⟨h, h'⟩
    · simp only [Direction.readText, h, h']
      split
      · exact ih t
      · exact tracks_nil fun _ hv => absurd hv List.not_mem_nil
    · simp only [Direction.readText, h]
      apply tracks_nil
      intro v hv hu
      split at hv
      · rename_i d t ht
        split at hv
        · exact h' d t ht (State.untouched_of_onward (onward_of_readText (Option.mem_toList.1 hv)) hu)
        · exact absurd hv List.not_mem_nil
      · exact absurd hv List.not_mem_nil

namespace Program

variable {p : Program}

theorem tracks_step (test : CharTest) (s : State) : TracksUntouched w (p.step? test .forward (s.followed w)).toList
    (p.step? test .forward s).toList := by
  rcases s.read_followed w with ⟨c, t, h, h'⟩ | ⟨h, h'⟩
  · simp only [step?, h, h']
    split
    · exact tracks_singleton (t.untouched_followed w)
    · exact tracks_nil fun _ hv => absurd hv List.not_mem_nil
  · simp only [step?, h]
    apply tracks_nil
    intro v hv hu
    split at hv
    · rename_i c t ht
      split at hv
      · rw [Option.toList_some, List.mem_singleton] at hv
        exact h' c t ht (hv ▸ hu)
      · exact absurd hv List.not_mem_nil
    · exact absurd hv List.not_mem_nil

theorem tracks_again (r : Reference) (caseless : Bool) (s : State) :
    TracksUntouched w (p.again? r caseless .forward (s.followed w)).toList (p.again? r caseless .forward s).toList := by
  unfold again?
  cases hn : r.resolve p.names with
  | none => exact tracks_nil fun _ hv => absurd hv List.not_mem_nil
  | some n =>
    simp only [Option.bind_some, s.text?_followed]
    cases s.captures.text? n with
    | none => exact tracks_nil fun _ hv => absurd hv List.not_mem_nil
    | some x => exact tracks_readText _ _ s

theorem untouched_of_mem_outcomes (e : Expr) (s : State) : ∀ v ∈ p.outcomes e .forward s, Untouched w v → Untouched w s :=
  fun v hv => State.untouched_of_onward (onward_of_mem_outcomes e .forward s v hv)

/-- **The outcomes that leave the text behind untouched are the outcomes without it**, where the expression does not look for
the end and no word goes on there -/
theorem tracks_outcomes (hw : touchesWord p.asciiOnly w = false) {e : Expr} (he : e.ignoresEnd = true) (s : State) :
    TracksUntouched w (p.outcomes e .forward (s.followed w)) (p.outcomes e .forward s) := by
  induction e generalizing s with
  | empty => exact tracks_singleton (s.untouched_followed w)
  | char test => exact tracks_step test s
  | anchor a =>
    simp only [outcomes, s.anchor_followed hw (by simpa [Expr.ignoresEnd] using he)]
    split
    · exact tracks_singleton (s.untouched_followed w)
    · exact tracks_nil fun _ hv => absurd hv List.not_mem_nil
  | cat a b iha ihb =>
    obtain ⟨ha, hb⟩ := Bool.and_eq_true_iff.1 he
    exact tracks_flatMap (iha ha s) (fun u _ => ihb hb u) fun x _ => untouched_of_mem_outcomes b x
  | alt a b iha ihb =>
    obtain ⟨ha, hb⟩ := Bool.and_eq_true_iff.1 he
    exact tracks_append (iha ha s) (ihb hb s)
  | group n e ih => exact tracks_map (ih he s) (fun u => s.capture_followed w u n) fun _ => Iff.rfl
  | backref r caseless => exact tracks_again r caseless s
  | repeated e r ih =>
    refine Repetition.tracks_iterate (State.untouched_followed w) (ih he) (untouched_of_mem_outcomes e) (fun s t => ?_) r s
    simp only [Direction.room, State.followed, List.length_append, Nat.add_lt_add_iff_right]
  | atomic e => exact absurd he (by simp [Expr.ignoresEnd])
  | look behind negated e => exact absurd he (by simp [Expr.ignoresEnd])

end Program

end UriRouting.Regex
