/-
Matching behind a prefix. A state is shifted by a prefix when the prefix stands before its text. An expression leads the two
alike as long as it does not look at what stands before the text: a start anchor or a word boundary looks at the character
before it, and a look-behind at as many as it reads. `Expr.staysWithin` is a check that it does not, knowing how many
characters must have been read when the expression is reached.

- `shifted_outcomes`: an expression that stays within the text has shifted outcomes, one by one, with the same captures.
-/
import UriRouting.Proofs.Regex.Bounds
import UriRouting.Proofs.Regex.Related

namespace UriRouting.Regex

/-- the same captures and the same text ahead, and behind the prefix the same text before -/
structure Shifted (front : Text) (s t : State) : Prop where
  before : t.before = s.before ++ front.reverse
  after : t.after = s.after
  captures : t.captures = s.captures

/-- does the anchor look at the character before it? -/
def Anchor.looksBack : Anchor → Bool
  | textStart | lineStart | wordStart | wordEnd | wordBoundary | noWordBoundary => true
  | textEnd | finalLineEnd | lineEnd => false

/-- read in the direction from behind so many characters, the expression looks at no more than these -/
def Expr.staysWithin : Expr → Direction → ℕ → Bool
  | empty, _, _ => true
  | char _, .forward, _ => true
  | char _, .backward, k => 0 < k
  | anchor a, _, k => !a.looksBack || 0 < k
  | cat a b, .forward, k => a.staysWithin .forward k && b.staysWithin .forward (k + a.least)
  | cat a b, .backward, k => b.staysWithin .backward k && a.staysWithin .backward (b.most.elim 0 (k - ·))
  | alt a b, d, k => a.staysWithin d k && b.staysWithin d k
  | group _ e, d, k => e.staysWithin d k
  | backref _ _, d, _ => d = .forward
  | repeated e _, .forward, k => e.staysWithin .forward k
  | repeated e r, .backward, k =>
    match e.most, r.most with
    | some 0, _ => e.staysWithin .backward k
    | some m, some times => e.staysWithin .backward (k - (max r.least times - 1) * m)
    | _, _ => e.staysWithin .backward 0
  | atomic e, d, k => e.staysWithin d k
  | look behind _ e, _, k => e.staysWithin (Program.lookDirection behind) k

variable {front : Text}

namespace Shifted

variable {s t : State}

theorem room_forward (h : Shifted front s t) : Direction.forward.room t = Direction.forward.room s :=
  congrArg List.length h.after

theorem room_lt_iff {u v : State} (h : Shifted front s t) (h' : Shifted front u v) (d : Direction) :
    d.room v < d.room t ↔ d.room u < d.room s := by
  cases d with
  | forward => rw [h.room_forward, h'.room_forward]
  | backward =>
    simp only [Direction.room, h.before, h'.before, List.length_append]
    omega

theorem isEmpty_before (h : Shifted front s t) (hs : 0 < s.place) : t.before.isEmpty = s.before.isEmpty ∧
    t.before.head? = s.before.head? ∧ ∀ asciiOnly, touchesWord asciiOnly t.before = touchesWord asciiOnly s.before := by
  rw [s.place_eq] at hs
  rw [h.before]
  cases hb : s.before with
  | nil => simp [hb] at hs
  | cons c rest => exact ⟨rfl, rfl, fun _ => rfl⟩

/-- an anchor holds alike behind the prefix, when it does not look there -/
theorem anchor (h : Shifted front s t) {a : Anchor} (ha : a.looksBack = false ∨ 0 < s.place) (asciiOnly : Bool) :
    a.holds asciiOnly t = a.holds asciiOnly s := by
  rcases ha with ha | hs
  · cases a <;> simp only [Anchor.looksBack, reduceCtorEq] at ha <;> simp only [Anchor.holds, h.after]
  · obtain ⟨hempty, hhead, htouch⟩ := h.isEmpty_before hs
    cases a <;> simp only [Anchor.holds, h.after, hempty, hhead, htouch]

theorem recapture (h : Shifted front s t) (cs : Captures) :
    Shifted front { s with captures := cs } { t with captures := cs } :=
  ⟨h.before, h.after, rfl⟩

theorem capture {u v : State} (h : Shifted front s t) (h' : Shifted front u v) (n : ℕ) (d : Direction) :
    Shifted front (u.capture n d s) (v.capture n d t) := by
  have htaken : d.taken t v = d.taken s u := by
    cases d <;> simp only [Direction.taken, h.after, h'.after]
  refine ⟨h'.before, h'.after, ?_⟩
  simp only [State.capture, htaken, h'.captures]

/-- the same character is read next -/
theorem read (h : Shifted front s t) {d : Direction} (hd : d = .forward ∨ 0 < s.place) :
    RelatedReads (Shifted front) (d.read s) (d.read t) := by
  obtain ⟨before, after, place, cs, hp⟩ := s
  obtain ⟨before', after', place', cs', hp'⟩ := t
  obtain ⟨hb, ha, hc⟩ := h
  simp only at hb ha hc
  subst hb ha hc
  cases d with
  | forward =>
    cases after' with
    | nil => exact .none
    | cons c rest => exact .some ⟨rfl, rfl, rfl, rfl⟩
  | backward =>
    rcases hd with hd | hd
    · cases hd
    · cases before with
      | nil => simp [hp] at hd
      | cons c rest => exact .some ⟨rfl, rfl, rfl, rfl⟩

theorem again (h : Shifted front s t) (p : Program) (r : Reference) (caseless : Bool) :
    Option.Rel (Shifted front) (p.again? r caseless .forward s) (p.again? r caseless .forward t) := by
  unfold Program.again?
  rw [h.captures]
  cases (r.resolve p.names).bind s.captures.text? with
  | none => exact .none
  | some x => exact related_readText (fun _ _ hst => hst.read (.inl rfl)) _ _ h

theorem seen (h : Shifted front s t) (negated : Bool) {o o' : Option State} (ho : Option.Rel (Shifted front) o o') :
    Option.Rel (Shifted front) (Program.seen negated s o) (Program.seen negated t o') := by
  cases ho with
  | none =>
    cases negated
    · exact .none
    · exact .some h
  | some hu =>
    cases negated
    · simp only [Program.seen, hu.captures]
      exact .some (h.recapture _)
    · exact .none

end Shifted

/-- **Behind a prefix, an expression that stays within the text leads the same way** -/
theorem Program.shifted_outcomes {p : Program} (e : Expr) {d : Direction} {k : ℕ} (he : e.staysWithin d k = true)
    {s t : State} (hk : k ≤ s.place) (h : Shifted front s t) :
    List.Forall₂ (Shifted front) (p.outcomes e d s) (p.outcomes e d t) := by
  induction e generalizing d k s t with
  | empty => exact .cons h .nil
  | char test =>
    apply forall₂_toList (related_step (h.read ?_))
    cases d with
    | forward => exact .inl rfl
    | backward => exact .inr ((of_decide_eq_true he).trans_le hk)
  | anchor a =>
    have ha : a.looksBack = false ∨ 0 < s.place := by
      rw [Expr.staysWithin, Bool.or_eq_true, Bool.not_eq_true', decide_eq_true_eq] at he
      exact he.imp id fun hpos => hpos.trans_le hk
    simp only [outcomes, h.anchor ha]
    split
    · exact .cons h .nil
    · exact .nil
  | cat a b iha ihb =>
    cases d with
    | forward =>
      rw [Expr.staysWithin, Bool.and_eq_true] at he
      apply forall₂_flatMap (iha he.1 hk h)
      intro u hu v huv
      refine ihb he.2 ?_ huv
      exact (Nat.add_le_add_right hk _).trans (place_add_least_le hu)
    | backward =>
      rw [Expr.staysWithin, Bool.and_eq_true] at he
      apply forall₂_flatMap (ihb he.1 hk h)
      intro u hu v huv
      refine iha he.2 ?_ huv
      cases hm : b.most with
      | none => exact Nat.zero_le _
      | some m =>
        have hplace := place_le_add_most hm hu
        simp only [Option.elim_some]
        omega
  | alt a b iha ihb =>
    rw [Expr.staysWithin, Bool.and_eq_true] at he
    exact List.rel_append (iha he.1 hk h) (ihb he.2 hk h)
  | group n e ih =>
    refine List.rel_map (R := Shifted front) (fun {u v} huv => ?_) (ih he hk h)
    exact h.capture huv n d
  | backref r caseless =>
    obtain rfl : d = .forward := of_decide_eq_true he
    exact forall₂_toList (h.again p r caseless)
  | repeated e r ih =>
    unfold outcomes
    have hroom : ∀ s t u v, Shifted front s t → Shifted front u v → (d.room v < d.room t ↔ d.room u < d.room s) :=
      fun s t u v hst huv => hst.room_lt_iff huv d
    cases d with
    | forward =>
      -- no iteration goes back
      have hnext : ∀ (_ : ℕ) s, k ≤ s.place → ∀ u ∈ p.outcomes e .forward s, k ≤ u.place := by
        intro _ s hs u hu
        have := place_add_least_le hu
        omega
      exact Repetition.related_iterate (fun _ s => k ≤ s.place) hroom (fun _ s t hs hst => ih he hs hst) hnext
        (fun _ _ => hk) (fun _ _ => hk) h
    | backward =>
      unfold Expr.staysWithin at he
      split at he
      · rename_i hzero
        have hnext : ∀ (_ : ℕ) s, k ≤ s.place → ∀ u ∈ p.outcomes e .backward s, k ≤ u.place :=
          fun _ s hs u hu => hs.trans (place_le_add_most hzero hu)
        exact Repetition.related_iterate (fun _ s => k ≤ s.place) hroom (fun _ s t hs hst => ih he hs hst) hnext
          (fun _ _ => hk) (fun _ _ => hk) h
      · rename_i m times _ hm htimes
        -- before the last of n iterations the others have gone back by n - 1 times the most, at most
        have hnext : ∀ n s, k - (max r.least times - 1) * m ≤ s.place - n * m →
            ∀ u ∈ p.outcomes e .backward s, 0 < n → k - (max r.least times - 1) * m ≤ u.place - (n - 1) * m := by
          intro n s hs u hu hn
          obtain ⟨n, rfl⟩ := Nat.exists_eq_succ_of_ne_zero hn.ne'
          have hplace := place_le_add_most hm hu
          rw [Nat.succ_mul] at hs
          rw [Nat.succ_sub_one]
          omega
        refine Repetition.related_iterate
          (fun n s => 0 < n → k - (max r.least times - 1) * m ≤ s.place - (n - 1) * m) hroom ?_ ?_ ?_ ?_ h
        · intro n s t hs hst
          exact ih he ((hs n.succ_pos).trans (Nat.sub_le _ _)) hst
        · intro n s hs
          exact hnext n s (hs n.succ_pos)
        · intro most hmost _
          obtain rfl := Option.some.inj (htimes.symm.trans hmost)
          exact Nat.sub_le_sub_right hk _
        · intro hnone
          cases htimes.symm.trans hnone
      · exact Repetition.related_iterate_of_body hroom (fun s t hst => ih he (Nat.zero_le _) hst) r h
  | atomic e ih => exact forall₂_toList (rel_head? (ih he hk h))
  | look behind negated e ih => exact forall₂_toList (h.seen negated (rel_head? (ih he hk h)))

end UriRouting.Regex
