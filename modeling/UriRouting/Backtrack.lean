/-
Search in a tree of choices. A node is a goal or has children, the preferred one first, and a rank that falls from node
to child, so that every path ends. `first?` is the goal that a walk from left to right meets first.

`search` finds it without walking the same ground twice. Nodes of one key lead to a goal or not alike; a key is noted
once all below a node has been found without a goal, and no node of a noted key is entered again. Only nodes with a
choice of children are noted. The walk keeps a list of what it still has to do, so its depth costs no stack.
-/
import Std.Data.HashSet

namespace UriRouting

def total : List Nat → Nat
  | [] => 0
  | n :: rest => n + total rest

@[simp] theorem total_nil : total [] = 0 := rfl

@[simp] theorem total_cons (n : Nat) (l : List Nat) : total (n :: l) = n + total l := rfl

@[simp] theorem total_append (l m : List Nat) : total (l ++ m) = total l + total m := by
  induction l with
  | nil => simp
  | cons n l ih => rw [List.cons_append, total_cons, total_cons, ih, Nat.add_assoc]

/-- a tree of choices -/
structure Backtrack (σ : Type) where
  isGoal : σ → Bool
  next : σ → List σ
  rank : σ → Nat × Nat
  rank_lt : ∀ s, ∀ t ∈ next s, Prod.Lex (· < ·) (· < ·) (rank t) (rank s)

namespace Backtrack

variable {σ κ : Type} (b : Backtrack σ)

def first? (s : σ) : Option σ :=
  if b.isGoal s then some s else (b.next s).attach.findSome? fun ⟨t, _⟩ => first? t
termination_by b.rank s
decreasing_by exact b.rank_lt s t ‹_›

/-- how much a walk below a node can cost -/
def effort (s : σ) : Nat := total ((b.next s).attach.map fun ⟨t, _⟩ => effort t) + 2
termination_by b.rank s
decreasing_by exact b.rank_lt s t ‹_›

theorem effort_eq (s : σ) : b.effort s = total ((b.next s).map b.effort) + 2 := by
  rw [effort]
  simp

/-- something a walk still has to do -/
inductive Pending (σ κ : Type) where
  | visit (s : σ)
  /-- note that nothing was found below a node of this key -/
  | failed (key : κ)

def Pending.effort : Pending σ κ → Nat
  | visit s => b.effort s
  | failed _ => 1

theorem total_effort_visit (l : List σ) :
    total ((l.map (.visit : σ → Pending σ κ)).map (Pending.effort b)) = total (l.map b.effort) := by
  rw [List.map_map]
  rfl

/-- the first goal among what is to be done, the keys in `noted` leading to none -/
def searchFrom [BEq κ] [Hashable κ] (key : σ → κ) (todo : List (Pending σ κ)) (noted : Std.HashSet κ) : Option σ :=
  match todo with
  | [] => none
  | .failed k :: rest => searchFrom key rest (noted.insert k)
  | .visit s :: rest =>
    if b.isGoal s then some s
    else
      match h : b.next s with
      | [] => searchFrom key rest noted
      | [t] => searchFrom key (.visit t :: rest) noted
      | t :: u :: more =>
        if key s ∈ noted then searchFrom key rest noted
        else searchFrom key ((t :: u :: more).map .visit ++ .failed (key s) :: rest) noted
termination_by total (todo.map (Pending.effort b))
decreasing_by
  · simp [Pending.effort]
  · have := b.effort_eq s
    simp only [List.map_cons, total_cons, Pending.effort]
    omega
  · have := b.effort_eq s
    simp only [h, List.map_cons, List.map_nil, total_cons, total_nil] at this
    simp only [List.map_cons, total_cons, Pending.effort]
    omega
  · have := b.effort_eq s
    simp only [List.map_cons, total_cons, Pending.effort]
    omega
  · have := b.effort_eq s
    rw [h] at this
    simp only [List.map_append, total_append, total_effort_visit, List.map_cons, total_cons, Pending.effort]
    simp only [List.map_cons, total_cons] at this
    omega

/-- the first goal at or below a node, no key followed twice -/
def search [BEq κ] [Hashable κ] (key : σ → κ) (s : σ) : Option σ := b.searchFrom key [.visit s] ∅

/-- what holds of the nodes to be visited and passes from a node to its children holds of the goal found -/
theorem holds_of_searchFrom [BEq κ] [Hashable κ] {key : σ → κ} {P : σ → Prop} (hnext : ∀ s, P s → ∀ t ∈ b.next s, P t)
    {todo : List (Pending σ κ)} {noted : Std.HashSet κ} {g : σ} (htodo : ∀ s, .visit s ∈ todo → P s)
    (h : b.searchFrom key todo noted = some g) : P g := by
  fun_induction searchFrom b key todo noted with
  | case1 => simp at h
  | case2 noted k rest ih => exact ih (fun s hs => htodo s (List.mem_cons_of_mem _ hs)) h
  | case3 noted s rest hg =>
    simp only [Option.some.injEq] at h
    exact h ▸ htodo s List.mem_cons_self
  | case4 noted s rest hg hn ih => exact ih (fun t ht => htodo t (List.mem_cons_of_mem _ ht)) h
  | case5 noted s rest hg t hn ih =>
    refine ih ?_ h
    intro u hu
    rcases List.mem_cons.1 hu with hu | hu
    · cases hu
      exact hnext s (htodo s List.mem_cons_self) t (by simp [hn])
    · exact htodo u (List.mem_cons_of_mem _ hu)
  | case6 noted s rest hg t u more hn hk ih => exact ih (fun v hv => htodo v (List.mem_cons_of_mem _ hv)) h
  | case7 noted s rest hg t u more hn hk ih =>
    refine ih ?_ h
    intro v hv
    rcases List.mem_append.1 hv with hv | hv
    · obtain ⟨w, hw, he⟩ := List.mem_map.1 hv
      cases he
      exact hnext s (htodo s List.mem_cons_self) v (hn ▸ hw)
    · rcases List.mem_cons.1 hv with hv | hv
      · cases hv
      · exact htodo v (List.mem_cons_of_mem _ hv)

/-- what holds of a node and passes to children holds of the goal found below it -/
theorem holds_of_search [BEq κ] [Hashable κ] {key : σ → κ} {P : σ → Prop} (hnext : ∀ s, P s → ∀ t ∈ b.next s, P t)
    {s g : σ} (hs : P s) (h : b.search key s = some g) : P g := by
  refine b.holds_of_searchFrom hnext ?_ h
  intro t ht
  simp only [List.mem_singleton] at ht
  cases ht
  exact hs

end Backtrack

end UriRouting
