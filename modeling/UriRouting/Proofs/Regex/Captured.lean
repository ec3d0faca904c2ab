/-
What groups capture. Whatever surrounds a group, and however often it is entered, left and entered again, what it has captured
in the end is a text that its body has read, between two places of the text that is matched.

- `captured_of_mem_outcomes`: what holds of all that the bodies of a group can read holds of what the group captures.
- `taken_segment`: what a segment reads is a stretch of the text, not empty and without slashes, in either direction.
- `captured_segment`: a full match captures nothing else for a group that holds segments only.
-/
import UriRouting.Proofs.Regex.Bounds
import UriRouting.Proofs.Regex.FullMatch
import UriRouting.Proofs.Regex.Named

namespace UriRouting.Regex

/-! ## The text between two places -/

/-- the text that is read between two states, as it stands -/
def Direction.Crosses (d : Direction) (w : Text) (s t : State) : Prop :=
  match d with
  | .forward => s.after = w ++ t.after
  | .backward => t.after = w ++ s.after

namespace Direction.Crosses

variable {d : Direction} {v w : Text} {s t u : State}

theorem refl (d : Direction) (s : State) : d.Crosses [] s s := by
  cases d <;> exact (List.nil_append _).symm

theorem trans (h : d.Crosses v s t) (h' : d.Crosses w t u) : d.Crosses (v ++ w) s u ∨ d.Crosses (w ++ v) s u := by
  cases d with
  | forward =>
    have h : s.after = v ++ t.after := h
    have h' : t.after = w ++ u.after := h'
    exact .inl (show s.after = v ++ w ++ u.after by rw [h, h', List.append_assoc])
  | backward =>
    have h : t.after = v ++ s.after := h
    have h' : u.after = w ++ t.after := h'
    exact .inr (show u.after = w ++ v ++ s.after by rw [h', h, List.append_assoc])

theorem text_taken (h : d.Crosses w s t) : (d.taken s t).text = w := by
  have htake : ∀ rest : Text, (w ++ rest).take ((w ++ rest).length - rest.length) = w := by
    intro rest
    rw [List.length_append, Nat.add_sub_cancel, List.take_left]
  cases d with
  | forward =>
    have h : s.after = w ++ t.after := h
    rw [taken, Capture.text, h, htake]
  | backward =>
    have h : t.after = w ++ s.after := h
    rw [taken, Capture.text, h, htake]

/-- what is read lies within the text -/
theorem infix_whole (h : d.Crosses w s t) (hwhole : t.whole = s.whole) : w <:+: s.whole := by
  cases d with
  | forward =>
    have h : s.after = w ++ t.after := h
    exact ⟨s.before.reverse, t.after, by rw [State.whole, h, List.append_assoc]⟩
  | backward =>
    have h : t.after = w ++ s.after := h
    exact ⟨t.before.reverse, s.after, by rw [← hwhole, State.whole, h, List.append_assoc]⟩

/-- where room was taken, text was read -/
theorem ne_nil (h : d.Crosses w s t) (honward : Onward d s t) (hroom : d.room t < d.room s) : w ≠ [] := by
  rintro rfl
  have hafter : t.after = s.after := by
    cases d with
    | forward => exact h.symm
    | backward => exact h
  have hplace : t.place = s.place := by
    have := s.length_whole
    rw [← honward.whole, t.length_whole, hafter] at this
    exact Nat.add_right_cancel this
  exact honward.stayed_iff.1 hplace hroom

end Direction.Crosses

theorem crosses_of_read {d : Direction} {s t : State} {c : Char} (h : d.read s = some (c, t)) :
    d.Crosses [c] s t ∧ t.captures = s.captures := by
  obtain ⟨before, after, place, captures, hplace⟩ := s
  cases d with
  | forward =>
    cases after with
    | nil => cases h
    | cons x rest =>
      simp only [Direction.read, Option.some.injEq, Prod.mk.injEq] at h
      obtain ⟨rfl, rfl⟩ := h
      exact ⟨rfl, rfl⟩
  | backward =>
    cases before with
    | nil => cases h
    | cons x rest =>
      simp only [Direction.read, Option.some.injEq, Prod.mk.injEq] at h
      obtain ⟨rfl, rfl⟩ := h
      exact ⟨rfl, rfl⟩

namespace Program

variable {p : Program}

/-- one character that the test accepts -/
theorem read_of_step {test : CharTest} {d : Direction} {s t : State} (h : p.step? test d s = some t) :
    ∃ c, d.read s = some (c, t) ∧ test.accepts p.asciiOnly c = true := by
  unfold step? at h
  split at h
  · rename_i c u hread
    split at h
    · rename_i haccepts
      exact ⟨c, Option.some.inj h ▸ hread, haccepts⟩
    · cases h
  · cases h

/-- a class that is repeated reads characters that it accepts -/
theorem crosses_of_run {test : CharTest} {least : ℕ} (d : Direction) (s : State) :
    ∀ t ∈ p.outcomes (.run least test) d s, ∃ w, (∀ c ∈ w, test.accepts p.asciiOnly c = true) ∧ d.Crosses w s t := by
  intro t ht
  rw [Expr.run, outcomes] at ht
  refine Repetition.rel_of_mem_iterate
    (R := fun s t => ∃ w, (∀ c ∈ w, test.accepts p.asciiOnly c = true) ∧ d.Crosses w s t) ?_ ?_ ?_ _ d.room s t ht
  · exact fun s => ⟨[], fun c hc => absurd hc List.not_mem_nil, .refl d s⟩
  · rintro s t u ⟨v, hv, hst⟩ ⟨w, hw, htu⟩
    rcases hst.trans htu with h | h
    · exact ⟨v ++ w, fun c hc => (List.mem_append.1 hc).elim (hv c) (hw c), h⟩
    · exact ⟨w ++ v, fun c hc => (List.mem_append.1 hc).elim (hw c) (hv c), h⟩
  · intro s t ht
    rw [outcomes, Option.mem_toList] at ht
    obtain ⟨c, hread, haccepts⟩ := read_of_step ht
    exact ⟨[c], fun x hx => List.mem_singleton.1 hx ▸ haccepts, (crosses_of_read hread).1⟩

/-- **What a segment reads**: a stretch of the text, not empty and without slashes -/
theorem taken_segment {e : Expr} (he : e.IsSegment) {d : Direction} {s t : State} (ht : t ∈ p.outcomes e d s) :
    (d.taken s t).text ≠ [] ∧ (d.taken s t).text <:+: s.whole ∧ '/' ∉ (d.taken s t).text := by
  obtain ⟨test, rfl, htest⟩ := he
  obtain ⟨w, hw, hcrosses⟩ := crosses_of_run d s t ht
  have honward := onward_of_mem_outcomes _ d s t ht
  have hroom : d.room t < d.room s := room_add_least_le (.run 1 test) d s t ht
  rw [hcrosses.text_taken]
  refine ⟨hcrosses.ne_nil honward hroom, hcrosses.infix_whole honward.whole, fun hslash => ?_⟩
  exact Bool.false_ne_true ((htest p.asciiOnly).symm.trans (hw '/' hslash))

/-! ## Captures -/

/-- a state within the text, in which what the group has captured is as wanted -/
structure Captured (whole : Text) (k : ℕ) (wanted : Text → Prop) (s : State) : Prop where
  whole : s.whole = whole
  wanted : ∀ v ∈ s.captures.text? k, wanted v

variable {whole : Text} {k : ℕ} {wanted : Text → Prop}

theorem captured_start : Captured whole k wanted (.start whole) := by
  refine ⟨rfl, fun v hv => ?_⟩
  cases hv

theorem captures_of_readText {d : Direction} {accepts : Char → Char → Bool} {x : Text} {s t : State}
    (h : d.readText accepts x s = some t) : t.captures = s.captures := by
  induction x generalizing s with
  | nil => exact congrArg State.captures (Option.some.inj h).symm
  | cons c x ih =>
    unfold Direction.readText at h
    split at h
    · rename_i hread
      split at h
      · exact (ih h).trans (crosses_of_read hread).2
      · cases h
    · cases h

/-- a look captures what its body captured, or nothing -/
theorem captures_of_seen {negated : Bool} {s t : State} {o : Option State} (h : seen negated s o = some t) :
    t.captures = s.captures ∨ ∃ u, o = some u ∧ t.captures = u.captures := by
  cases o with
  | none =>
    cases negated with
    | false => cases h
    | true => exact .inl (congrArg State.captures (Option.some.inj h).symm)
  | some u =>
    cases negated with
    | false =>
      have ht : ({ s with captures := u.captures } : State) = t := Option.some.inj h
      exact .inr ⟨u, rfl, by rw [← ht]⟩
    | true => cases h

namespace Captured

variable {s t : State}

/-- moving on captures nothing -/
theorem move (hs : Captured whole k wanted s) {d : Direction} (honward : Onward d s t) (hcaptures : t.captures = s.captures) :
    Captured whole k wanted t :=
  ⟨honward.whole.trans hs.whole, hcaptures ▸ hs.wanted⟩

/-- a group captures what was read since it was opened -/
theorem capture (ht : Captured whole k wanted t) {n : ℕ} {d : Direction} (htaken : n = k → wanted (d.taken s t).text) :
    Captured whole k wanted (t.capture n d s) := by
  refine ⟨ht.whole, fun v hv => ?_⟩
  rw [State.capture, Captures.text?_set] at hv
  split at hv
  · rename_i hn
    exact Option.some.inj hv ▸ htaken hn.symm
  · exact ht.wanted v hv

end Captured

/-- **What holds of all that the bodies of a group can read holds of what it has captured**, wherever it stands -/
theorem captured_of_mem_outcomes (e : Expr) (hbodies : ∀ body, (k, body) ∈ e.groups → ∀ d s, s.whole = whole →
      ∀ t ∈ p.outcomes body d s, wanted (d.taken s t).text) (d : Direction) (s : State) (hs : Captured whole k wanted s) :
    ∀ t ∈ p.outcomes e d s, Captured whole k wanted t := by
  induction e generalizing d s with
  | empty =>
    intro t ht
    exact List.mem_singleton.1 ht ▸ hs
  | char test =>
    intro t ht
    rw [outcomes, Option.mem_toList] at ht
    obtain ⟨c, hread, -⟩ := read_of_step ht
    exact hs.move (onward_of_read hread) (crosses_of_read hread).2
  | anchor a =>
    intro t ht
    unfold outcomes at ht
    split at ht
    · exact List.mem_singleton.1 ht ▸ hs
    · exact absurd ht List.not_mem_nil
  | cat a b iha ihb =>
    have ha := iha fun body hbody => hbodies body (List.mem_append_left _ hbody)
    have hb := ihb fun body hbody => hbodies body (List.mem_append_right _ hbody)
    intro t ht
    cases d with
    | forward =>
      obtain ⟨u, hu, ht⟩ := List.mem_flatMap.1 ht
      exact hb .forward u (ha .forward s hs u hu) t ht
    | backward =>
      obtain ⟨u, hu, ht⟩ := List.mem_flatMap.1 ht
      exact ha .backward u (hb .backward s hs u hu) t ht
  | alt a b iha ihb =>
    intro t ht
    rcases List.mem_append.1 ht with ht | ht
    · exact iha (fun body hbody => hbodies body (List.mem_append_left _ hbody)) d s hs t ht
    · exact ihb (fun body hbody => hbodies body (List.mem_append_right _ hbody)) d s hs t ht
  | group n e ih =>
    intro t ht
    obtain ⟨u, hu, rfl⟩ := List.mem_map.1 ht
    have hinner := ih (fun body hbody => hbodies body (List.mem_cons_of_mem _ hbody)) d s hs u hu
    refine hinner.capture fun hn => ?_
    exact hbodies e (hn ▸ List.mem_cons_self) d s hs.whole u hu
  | backref r caseless =>
    intro t ht
    rw [outcomes, Option.mem_toList] at ht
    obtain ⟨x, -, hx⟩ := Option.bind_eq_some_iff.1 ht
    exact hs.move (onward_of_readText hx) (captures_of_readText hx)
  | repeated e r ih =>
    intro t ht
    rw [outcomes] at ht
    exact Repetition.rel_of_mem_iterate (R := fun s t => Captured whole k wanted s → Captured whole k wanted t)
      (fun _ h => h) (fun h h' hs => h' (h hs)) (fun s t ht hs => ih hbodies d s hs t ht) r d.room s t ht hs
  | atomic e ih =>
    intro t ht
    rw [outcomes, Option.mem_toList] at ht
    exact ih hbodies d s hs t (List.mem_of_head? ht)
  | look behind negated e ih =>
    intro t ht
    rw [outcomes, Option.mem_toList] at ht
    have honward : Onward d s t := onward_of_seen ht
    rcases captures_of_seen ht with hcaptures | ⟨u, hu, hcaptures⟩
    · exact hs.move honward hcaptures
    · have hbody := ih hbodies (lookDirection behind) s hs u (List.mem_of_head? hu)
      exact ⟨honward.whole.trans hs.whole, hcaptures ▸ hbody.wanted⟩

/-- **What a full match captures for a group that holds segments only** -/
theorem captured_segment {captures : Captures} {path v : Text} (hmatch : p.fullMatch path = some captures)
    (hsegment : ∀ body, (k, body) ∈ p.root.groups → body.IsSegment) (hv : captures.text? k = some v) :
    v ≠ [] ∧ v <:+: path ∧ '/' ∉ v := by
  rw [fullMatch_eq_find?] at hmatch
  obtain ⟨t, ht, rfl⟩ := Option.map_eq_some_iff.1 hmatch
  have hbodies : ∀ body, (k, body) ∈ p.root.groups → ∀ d s, s.whole = path → ∀ t ∈ p.outcomes body d s,
      (d.taken s t).text ≠ [] ∧ (d.taken s t).text <:+: path ∧ '/' ∉ (d.taken s t).text :=
    fun body hbody d s hs t ht => hs ▸ taken_segment (hsegment body hbody) ht
  have hstart : Captured path k (fun v => v ≠ [] ∧ v <:+: path ∧ '/' ∉ v) (.start path) := captured_start
  exact (captured_of_mem_outcomes p.root hbodies .forward _ hstart t (List.mem_of_find?_eq_some ht)).wanted v hv

end Program

end UriRouting.Regex
