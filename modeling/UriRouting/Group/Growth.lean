/-
The growth of a tree of groups: what becomes of a forest when routes are declared in its groups and groups are made inside
them, call by call and in any order.
-/
import UriRouting.Group.Forest

namespace UriRouting.Forest

/-- the ways to declare a route: with the method it has, or by a helper that sets one -/
inductive Via where
  | add
  | get
  | post
  | put
  | patch
  | delete
  | any
deriving Repr

namespace Via

def method? : Via → Option Text
  | add => none
  | get => some Method.get
  | post => some Method.post
  | put => some Method.put
  | patch => some Method.patch
  | delete => some Method.delete
  | any => some Method.all

def route (via : Via) (given : Route) : Route := { given with method := via.method? <|> given.method }

end Via

/-- what is done to a group -/
inductive Call where
  | declare (group : Nat) (via : Via) (route : Route)
  /-- make a group inside -/
  | nest (group : Nat) (base : Text)
deriving Repr

def Call.group : Call → Nat
  | declare group _ _ => group
  | nest group _ => group

def step (f : Forest) : Call → Forest
  | .declare n via route => f.declare n (via.route route)
  | .nest n base => f.nest n base

def run (f : Forest) (calls : List Call) : Forest := calls.foldl step f

/-- each call is about a group that is there by then -/
def Admits (f : Forest) : List Call → Prop
  | [] => True
  | c :: rest => c.group < f.nodes.length ∧ (f.step c).Admits rest

@[simp] theorem run_cons (f : Forest) (c : Call) (calls : List Call) : f.run (c :: calls) = (f.step c).run calls := rfl

instance decidableAdmits (f : Forest) (calls : List Call) : Decidable (f.Admits calls) :=
  match calls with
  | [] => inferInstanceAs (Decidable True)
  | c :: rest =>
    have := decidableAdmits (f.step c) rest
    inferInstanceAs (Decidable (c.group < f.nodes.length ∧ (f.step c).Admits rest))

end UriRouting.Forest
