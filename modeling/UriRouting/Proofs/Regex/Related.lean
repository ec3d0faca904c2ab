/-
Related states: where two states are related, so are the states that a step of matching leads them to, as many of them and
in the same order. Reading keeps a relation when reading one character does, and a repetition when one iteration does. What
an iteration may rely on can depend on how many are still to come, which is what the invariant says: `inv n s` for a state
with n iterations before it, at most.

- `related_readText`, `related_step`: reading a text, and a character that a test accepts.
- `related_iterate`: the repetition of related bodies, with limits or without.
- `related_iterate_of_body`: the same for bodies that need no invariant.
-/
import UriRouting.Proofs.Regex.Progress

namespace UriRouting.Regex

variable {R : State → State → Prop}

/-! ## Lists -/

theorem forall₂_flatMap {l l' : List State} {f g : State → List State} (h : List.Forall₂ R l l')
    (hf : ∀ s ∈ l, ∀ t, R s t → List.Forall₂ R (f s) (g t)) : List.Forall₂ R (l.flatMap f) (l'.flatMap g) := by
  induction h with
  | nil => exact .nil
  | cons hst _ ih =>
    exact List.rel_append (hf _ List.mem_cons_self _ hst) (ih fun s hs => hf s (List.mem_cons_of_mem _ hs))

theorem rel_head? {l l' : List State} (h : List.Forall₂ R l l') : Option.Rel R l.head? l'.head? := by
  cases h with
  | nil => exact .none
  | cons h _ => exact .some h

theorem forall₂_toList {o o' : Option State} (h : Option.Rel R o o') : List.Forall₂ R o.toList o'.toList := by
  cases h with
  | none => exact .nil
  | some h => exact .cons h .nil

/-! ## Reading -/

/-- the same character is read, and leaves related states -/
abbrev RelatedReads (R : State → State → Prop) : Option (Char × State) → Option (Char × State) → Prop :=
  Option.Rel fun x y => x.1 = y.1 ∧ R x.2 y.2

theorem related_step {p : Program} {test : CharTest} {d : Direction} {s t : State}
    (hread : RelatedReads R (d.read s) (d.read t)) : Option.Rel R (p.step? test d s) (p.step? test d t) := by
  unfold Program.step?
  generalize d.read s = o at hread
  generalize d.read t = o' at hread
  cases hread with
  | none => exact .none
  | some hxy =>
    simp only [hxy.1]
    split
    · exact .some hxy.2
    · exact .none

theorem related_readText {d : Direction} (hread : ∀ s t, R s t → RelatedReads R (d.read s) (d.read t))
    (accepts : Char → Char → Bool) (x : Text) {s t : State} (h : R s t) :
    Option.Rel R (d.readText accepts x s) (d.readText accepts x t) := by
  induction x generalizing s t with
  | nil => exact .some h
  | cons c x ih =>
    have hr := hread s t h
    unfold Direction.readText
    generalize d.read s = o at hr
    generalize d.read t = o' at hr
    cases hr with
    | none => exact .none
    | some hxy =>
      simp only [hxy.1]
      split
      · exact ih hxy.2
      · exact .none

namespace Repetition

theorem forall₂_order {a a' b b' : List State} (lazy : Bool) (ha : List.Forall₂ R a a') (hb : List.Forall₂ R b b') :
    List.Forall₂ R (order lazy a b) (order lazy a' b') := by
  cases lazy
  · exact List.rel_append ha hb
  · exact List.rel_append hb ha

/-! ## Iterations -/

variable {body body' : State → List State} {inv : ℕ → State → Prop}

theorem inv_of_mem_times (hnext : ∀ n s, inv (n + 1) s → ∀ u ∈ body s, inv n u) (m n : ℕ) {s : State}
    (hs : inv (m + n) s) : ∀ t ∈ times body n s, inv m t := by
  induction n generalizing s with
  | zero =>
    intro t ht
    rwa [List.mem_singleton.1 ht]
  | succ n ih =>
    intro t ht
    obtain ⟨u, hu, ht⟩ := List.mem_flatMap.1 ht
    exact ih (hnext (m + n) s hs u hu) t ht

theorem related_times (hbody : ∀ n s t, inv (n + 1) s → R s t → List.Forall₂ R (body s) (body' t))
    (hnext : ∀ n s, inv (n + 1) s → ∀ u ∈ body s, inv n u) (m n : ℕ) {s t : State} (hs : inv (m + n) s) (h : R s t) :
    List.Forall₂ R (times body n s) (times body' n t) := by
  induction n generalizing s t with
  | zero => exact .cons h .nil
  | succ n ih =>
    apply forall₂_flatMap (hbody (m + n) s t hs h)
    intro u hu v huv
    exact ih (hnext (m + n) s hs u hu) huv

theorem related_upTo (hbody : ∀ n s t, inv (n + 1) s → R s t → List.Forall₂ R (body s) (body' t))
    (hnext : ∀ n s, inv (n + 1) s → ∀ u ∈ body s, inv n u) (lazy : Bool) (n : ℕ) {s t : State} (hs : inv n s)
    (h : R s t) : List.Forall₂ R (upTo lazy body n s) (upTo lazy body' n t) := by
  induction n generalizing s t with
  | zero => exact .cons h .nil
  | succ n ih =>
    refine forall₂_order lazy (forall₂_flatMap (hbody n s t hs h) ?_) (.cons h .nil)
    intro u hu v huv
    exact ih (hnext n s hs u hu) huv

theorem related_unlimited (inv : State → Prop) {room : State → ℕ}
    (hroom : ∀ s t u v, R s t → R u v → (room v < room t ↔ room u < room s))
    (hbody : ∀ s t, inv s → R s t → List.Forall₂ R (body s) (body' t)) (hnext : ∀ s, inv s → ∀ u ∈ body s, inv u)
    (lazy : Bool) {s t : State} (hs : inv s) (h : R s t) :
    List.Forall₂ R (unlimited lazy room body s) (unlimited lazy room body' t) := by
  fun_induction unlimited lazy room body s generalizing t with
  | case1 s ih =>
    rw [unlimited.eq_def lazy room body' t]
    refine forall₂_order lazy (forall₂_flatMap (hbody s t hs h) ?_) (.cons h .nil)
    intro u hu v huv
    by_cases hlt : room u < room s
    · rw [if_pos hlt, if_pos ((hroom s t u v h huv).2 hlt)]
      exact ih u hlt (hnext s hs u hu) huv
    · rw [if_neg hlt, if_neg (mt (hroom s t u v h huv).1 hlt)]
      exact .cons huv .nil

/-- **Repetitions of related bodies are related**, where the invariant holds of the start for as many iterations as there
can be -/
theorem related_iterate (inv : ℕ → State → Prop) {room : State → ℕ}
    (hroom : ∀ s t u v, R s t → R u v → (room v < room t ↔ room u < room s))
    (hbody : ∀ n s t, inv (n + 1) s → R s t → List.Forall₂ R (body s) (body' t))
    (hnext : ∀ n s, inv (n + 1) s → ∀ u ∈ body s, inv n u) {r : Repetition} {s t : State}
    (hsome : ∀ most, r.most = some most → inv (max r.least most) s) (hnone : r.most = none → ∀ n, inv n s) (h : R s t) :
    List.Forall₂ R (r.iterate room body s) (r.iterate room body' t) := by
  cases hm : r.most with
  | some most =>
    have hs : inv (most - r.least + r.least) s := by
      have hmax := hsome most hm
      rwa [show max r.least most = most - r.least + r.least by omega] at hmax
    rw [iterate_some hm, iterate_some hm]
    apply forall₂_flatMap (related_times hbody hnext _ _ hs h)
    intro u hu v huv
    exact related_upTo hbody hnext _ _ (inv_of_mem_times hnext _ _ hs u hu) huv
  | none =>
    have hs := hnone hm
    rw [iterate_none hm, iterate_none hm]
    apply forall₂_flatMap (related_times hbody hnext 0 _ (hs _) h)
    intro u hu v huv
    refine related_unlimited (fun s => ∀ n, inv n s) hroom (fun s t hs => hbody 0 s t (hs 1))
      (fun s hs u hu n => hnext n s (hs (n + 1)) u hu) _ ?_ huv
    intro n
    exact inv_of_mem_times hnext n _ (hs _) u hu

theorem related_iterate_of_body {room : State → ℕ}
    (hroom : ∀ s t u v, R s t → R u v → (room v < room t ↔ room u < room s))
    (hbody : ∀ s t, R s t → List.Forall₂ R (body s) (body' t)) (r : Repetition) {s t : State} (h : R s t) :
    List.Forall₂ R (r.iterate room body s) (r.iterate room body' t) :=
  related_iterate (fun _ _ => True) hroom (fun _ s t _ => hbody s t) (fun _ _ _ _ _ => trivial) (fun _ _ => trivial)
    (fun _ _ => trivial) h

end Repetition

end UriRouting.Regex
