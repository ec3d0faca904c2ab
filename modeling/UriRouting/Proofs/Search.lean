/-
Noting failed keys loses nothing. `Backtrack.search` walks a tree of choices from left to right and skips every node
whose key has been noted; `Backtrack.first?` walks all of it.

`search_eq_first?`: as long as the nodes of one key lead to a goal or not alike, the two find the same goal. The nodes
meant are those with a property P that children inherit: a key need not tell apart what the walk never meets.

The proof carries two conditions along the walk. `Sound`: below a node of a noted key there is no goal. `Justified`: a
key that is still to be noted will be sound to note, once all visits before it have failed.
-/
import Mathlib.Tactic
import UriRouting.Backtrack

namespace UriRouting.Backtrack

variable {σ κ : Type} (b : Backtrack σ)

/-- the first goal of a node that is none itself is the first goal of its children -/
theorem first?_of_not_goal {s : σ} (h : b.isGoal s = false) : b.first? s = (b.next s).findSome? b.first? := by
  unfold first?
  simp only [h, Bool.false_eq_true, if_false]
  simp

theorem first?_of_goal {s : σ} (h : b.isGoal s = true) : b.first? s = some s := by
  unfold first?
  simp [h]

theorem findSome?_congr {α β : Type} {l : List α} {f g : α → Option β} (h : ∀ x ∈ l, f x = g x) :
    l.findSome? f = l.findSome? g := by
  induction l with
  | nil => rfl
  | cons x l ih =>
    rw [List.findSome?_cons, List.findSome?_cons, h x List.mem_cons_self]
    rw [ih fun y hy => h y (List.mem_cons_of_mem x hy)]

/-- **Goals read off as a list.** Let each goal stand for one thing and every other node for what its children stand
for, in order. Then the first goal below a node stands for the first thing that the node does. -/
theorem map_first?_eq_head? {τ : Type} {P : σ → Prop} (hnext : ∀ s, P s → ∀ t ∈ b.next s, P t) (f : σ → List τ)
    (g : σ → τ) (hgoal : ∀ s, P s → b.isGoal s = true → f s = [g s])
    (hstep : ∀ s, P s → b.isGoal s = false → f s = (b.next s).flatMap f) (s : σ) (hs : P s) :
    (b.first? s).map g = (f s).head? := by
  induction s using first?.induct (b := b) with
  | case1 s hg =>
    rw [b.first?_of_goal hg, hgoal s hs hg]
    rfl
  | case2 s hg ih =>
    have hg' : b.isGoal s = false := by simpa using hg
    rw [b.first?_of_not_goal hg', hstep s hs hg', List.head?_flatMap, List.map_findSome?]
    exact findSome?_congr fun t ht => ih t ht (hnext s hs t ht)

/-- what is found below the pending visits, notes left aside -/
def pendingGoal : Pending σ κ → Option σ
  | .visit s => b.first? s
  | .failed _ => none

/-- no node of the key leads to a goal -/
def Hopeless (P : σ → Prop) (key : σ → κ) (k : κ) : Prop := ∀ s, P s → key s = k → b.first? s = none

/-- no noted key leads to a goal -/
def Sound [BEq κ] [Hashable κ] (P : σ → Prop) (key : σ → κ) (noted : Std.HashSet κ) : Prop :=
  ∀ k ∈ noted, b.Hopeless P key k

/-- the keys to be noted are hopeless once all visits before them have failed -/
def Justified (P : σ → Prop) (key : σ → κ) : List (Pending σ κ) → Prop
  | [] => True
  | .visit s :: rest => P s ∧ (b.first? s = none → Justified P key rest)
  | .failed k :: rest => b.Hopeless P key k ∧ Justified P key rest

theorem Sound.insert [BEq κ] [LawfulBEq κ] [Hashable κ] {P : σ → Prop} {key : σ → κ} {noted : Std.HashSet κ} {k : κ}
    (h : b.Sound P key noted) (hk : b.Hopeless P key k) : b.Sound P key (noted.insert k) := by
  intro k' hk'
  rcases Std.HashSet.mem_insert.1 hk' with he | hm
  · rw [← eq_of_beq he]
    exact hk
  · exact h k' hm

/-- visits before a justified rest: when all of them fail, the rest is as justified as before -/
theorem justified_append {P : σ → Prop} {key : σ → κ} {ts : List σ} {rest : List (Pending σ κ)}
    (hts : ∀ t ∈ ts, P t) (hrest : ts.findSome? b.first? = none → b.Justified P key rest) :
    b.Justified P key (ts.map .visit ++ rest) := by
  induction ts with
  | nil => exact hrest rfl
  | cons t ts ih =>
    refine ⟨hts t List.mem_cons_self, fun ht => ih (fun u hu => hts u (List.mem_cons_of_mem t hu)) fun hn => ?_⟩
    exact hrest (by rw [List.findSome?_cons, ht]; exact hn)

theorem findSome?_visit (ts : List σ) : (ts.map (Pending.visit (κ := κ))).findSome? b.pendingGoal = ts.findSome? b.first? := by
  rw [List.findSome?_map]
  rfl

/-- **The walk finds the first goal** among what it has still to visit, from sound notes and justified work -/
theorem searchFrom_eq [BEq κ] [LawfulBEq κ] [Hashable κ] {P : σ → Prop} {key : σ → κ}
    (hnext : ∀ s, P s → ∀ t ∈ b.next s, P t)
    (hkey : ∀ s t, P s → P t → key s = key t → b.first? s = none → b.first? t = none)
    (todo : List (Pending σ κ)) (noted : Std.HashSet κ) (hn : b.Sound P key noted) (ht : b.Justified P key todo) :
    b.searchFrom key todo noted = todo.findSome? b.pendingGoal := by
  fun_induction searchFrom b key todo noted with
  | case1 noted => rfl
  | case2 noted k rest ih =>
    rw [ih (hn.insert b ht.1) ht.2]
    rfl
  | case3 noted s rest hg =>
    rw [List.findSome?_cons]
    simp only [pendingGoal, b.first?_of_goal hg]
  | case4 noted s rest hg hs ih =>
    have hf : b.first? s = none := by
      rw [b.first?_of_not_goal (by simpa using hg), hs]
      rfl
    rw [ih hn (ht.2 hf), List.findSome?_cons]
    simp only [pendingGoal, hf]
  | case5 noted s rest hg t hs ih =>
    have hf : b.first? s = b.first? t := by
      rw [b.first?_of_not_goal (by simpa using hg), hs]
      simp
    rw [ih hn ⟨hnext s ht.1 t (by simp [hs]), fun h => ht.2 (hf.trans h)⟩]
    simp only [List.findSome?_cons, pendingGoal, hf]
  | case6 noted s rest hg t u more hs hk ih =>
    have hf : b.first? s = none := hn _ hk s ht.1 rfl
    rw [ih hn (ht.2 hf), List.findSome?_cons]
    simp only [pendingGoal, hf]
  | case7 noted s rest hg t u more hs hk ih =>
    have hf : b.first? s = (t :: u :: more).findSome? b.first? := by
      rw [b.first?_of_not_goal (by simpa using hg), hs]
    have hj : b.Justified P key ((t :: u :: more).map .visit ++ .failed (key s) :: rest) := by
      apply b.justified_append fun v hv => hnext s ht.1 v (hs ▸ hv)
      intro hnone
      have hs' : b.first? s = none := hf.trans hnone
      exact ⟨fun v hv hvk => hkey s v ht.1 hv hvk.symm hs', ht.2 hs'⟩
    rw [ih hn hj, List.findSome?_append, findSome?_visit, ← hf]
    simp only [List.findSome?_cons, pendingGoal]
    cases b.first? s <;> rfl

/-- **The search finds the first goal**, when nodes of one key lead to a goal or not alike -/
theorem search_eq_first? [BEq κ] [LawfulBEq κ] [Hashable κ] {P : σ → Prop} (key : σ → κ)
    (hnext : ∀ s, P s → ∀ t ∈ b.next s, P t)
    (hkey : ∀ s t, P s → P t → key s = key t → b.first? s = none → b.first? t = none) {s : σ} (hs : P s) :
    b.search key s = b.first? s := by
  have hn : b.Sound P key ∅ := fun k hk => absurd hk Std.HashSet.not_mem_empty
  rw [search, b.searchFrom_eq hnext hkey [.visit s] ∅ hn ⟨hs, fun _ => trivial⟩]
  simp [pendingGoal]

end UriRouting.Backtrack
