/-
Results that may be failures: what a changed result and a batch of results come to. `mapM_ok_iff` and `mapM_error_iff` read
a batch off its elements: it gives all their results in order, or the failure of the first element that has one.
-/
import Mathlib.Tactic

namespace UriRouting.Results

variable {α β ε : Type}

theorem exists_of_isOk {r : Except ε α} (h : r.isOk = true) : ∃ x, r = .ok x := by
  cases r with
  | error e => exact Bool.noConfusion h
  | ok x => exact ⟨x, rfl⟩

theorem isOk_iff {r : Except ε α} : r.isOk = true ↔ ∃ x, r = .ok x := by
  refine ⟨exists_of_isOk, ?_⟩
  rintro ⟨x, rfl⟩
  rfl

theorem map_eq_ok_iff {g : α → β} {r : Except ε α} {y : β} : r.map g = .ok y ↔ ∃ x, r = .ok x ∧ g x = y := by
  cases r <;> simp [Except.map]

theorem map_eq_error_iff {g : α → β} {r : Except ε α} {e : ε} : r.map g = .error e ↔ r = .error e := by
  cases r <;> simp [Except.map]

/-! ## Batches -/

variable {f : α → Except ε β}

theorem mapM_cons_error {x : α} {e : ε} (h : f x = .error e) (xs : List α) : (x :: xs).mapM f = .error e := by
  rw [List.mapM_cons, h]
  rfl

theorem mapM_cons_ok {x : α} {y : β} (h : f x = .ok y) (xs : List α) :
    (x :: xs).mapM f = (xs.mapM f).map (y :: ·) := by
  rw [List.mapM_cons, h]
  cases xs.mapM f <;> rfl

theorem mapM_ok_iff {xs : List α} {ys : List β} :
    xs.mapM f = .ok ys ↔ List.Forall₂ (fun x y => f x = .ok y) xs ys := by
  induction xs generalizing ys with
  | nil =>
    rw [List.mapM_nil, List.forall₂_nil_left_iff]
    refine ⟨?_, ?_⟩
    · intro h
      exact (Except.ok.inj h).symm
    · rintro rfl
      rfl
  | cons x xs ih =>
    rw [List.forall₂_cons_left_iff]
    cases hx : f x with
    | error e =>
      rw [mapM_cons_error hx]
      simp
    | ok y =>
      simp only [mapM_cons_ok hx, map_eq_ok_iff, ih]
      refine ⟨?_, ?_⟩
      · intro hmap
        obtain ⟨ys', hys, rfl⟩ := hmap
        exact ⟨y, ys', rfl, hys, rfl⟩
      · intro hmap
        obtain ⟨y', ys', hy, hys, rfl⟩ := hmap
        obtain rfl := Except.ok.inj hy
        exact ⟨ys', hys, rfl⟩

/-- a batch gives results when all of its elements do -/
theorem exists_mapM_iff {xs : List α} : (∃ ys, xs.mapM f = .ok ys) ↔ ∀ x ∈ xs, ∃ y, f x = .ok y := by
  induction xs with
  | nil =>
    refine ⟨?_, ?_⟩
    · intro _ x hx
      exact absurd hx List.not_mem_nil
    · intro _
      exact ⟨[], rfl⟩
  | cons x xs ih =>
    rw [List.forall_mem_cons, ← ih]
    cases hx : f x with
    | error e =>
      rw [mapM_cons_error hx]
      simp
    | ok y =>
      simp only [mapM_cons_ok hx, map_eq_ok_iff]
      refine ⟨?_, ?_⟩
      · intro h
        obtain ⟨_, ys, hys, -⟩ := h
        exact ⟨⟨y, rfl⟩, ys, hys⟩
      · intro h
        obtain ⟨-, ys, hys⟩ := h
        exact ⟨y :: ys, ys, hys, rfl⟩

/-- every result of a batch is that of one of its elements -/
theorem exists_of_mem_mapM {xs : List α} {ys : List β} (h : xs.mapM f = .ok ys) {y : β} (hy : y ∈ ys) :
    ∃ x ∈ xs, f x = .ok y := by
  have hrel := mapM_ok_iff.1 h
  clear h
  induction hrel with
  | nil => simp at hy
  | @cons x z xs ys hz _ ih =>
    rcases List.mem_cons.1 hy with rfl | hy
    · exact ⟨x, List.mem_cons_self, hz⟩
    · obtain ⟨x', hx', hxy⟩ := ih hy
      exact ⟨x', List.mem_cons_of_mem x hx', hxy⟩

/-- every element of a batch has its result among those of the batch -/
theorem exists_mem_of_mapM {xs : List α} {ys : List β} (h : xs.mapM f = .ok ys) {x : α} (hx : x ∈ xs) :
    ∃ y ∈ ys, f x = .ok y := by
  have hrel := mapM_ok_iff.1 h
  clear h
  induction hrel with
  | nil => exact absurd hx List.not_mem_nil
  | @cons z y xs ys hz _ ih =>
    rcases List.mem_cons.1 hx with rfl | hx
    · exact ⟨y, List.mem_cons_self, hz⟩
    · obtain ⟨y', hy', hxy⟩ := ih hx
      exact ⟨y', List.mem_cons_of_mem y hy', hxy⟩

/-- a batch fails with the failure of the first element that has one -/
theorem mapM_error_iff {xs : List α} {e : ε} : xs.mapM f = .error e ↔
    ∃ before x after, xs = before ++ x :: after ∧ (∀ y ∈ before, ∃ z, f y = .ok z) ∧ f x = .error e := by
  induction xs with
  | nil => simp [pure, Except.pure]
  | cons x xs ih =>
    cases hx : f x with
    | error e' =>
      rw [mapM_cons_error hx]
      refine ⟨?_, ?_⟩
      · intro h
        obtain rfl := Except.error.inj h
        exact ⟨[], x, xs, rfl, by simp, hx⟩
      · intro hmap
        obtain ⟨before, y, after, hxs, hbefore, hy⟩ := hmap
        cases before with
        | nil =>
          obtain ⟨rfl, rfl⟩ := List.cons.inj hxs
          rw [Except.error.inj (hx.symm.trans hy)]
        | cons z before =>
          obtain ⟨rfl, rfl⟩ := List.cons.inj hxs
          obtain ⟨w, hw⟩ := hbefore x List.mem_cons_self
          simp [hw] at hx
    | ok y =>
      rw [mapM_cons_ok hx, map_eq_error_iff, ih]
      refine ⟨?_, ?_⟩
      · intro hmap
        obtain ⟨before, z, after, rfl, hbefore, hz⟩ := hmap
        exact ⟨x :: before, z, after, rfl, List.forall_mem_cons.2 ⟨⟨y, hx⟩, hbefore⟩, hz⟩
      · intro hmap
        obtain ⟨before, z, after, hxs, hbefore, hz⟩ := hmap
        cases before with
        | nil =>
          obtain ⟨rfl, rfl⟩ := List.cons.inj hxs
          simp [hz] at hx
        | cons w before =>
          obtain ⟨rfl, rfl⟩ := List.cons.inj hxs
          exact ⟨before, z, after, rfl, (List.forall_mem_cons.1 hbefore).2, hz⟩

end UriRouting.Results
