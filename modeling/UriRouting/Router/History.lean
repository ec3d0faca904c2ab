/-
Histories of a router: what becomes of it under a sequence of changes, each of which may fail and then changes nothing.
-/
import UriRouting.Router.Basic

namespace UriRouting.Router

/-- something that may change a router -/
inductive Change where
  | add (route : Route)
  | addGroup (group : Group)
  | remove (route : Route)
deriving Repr

def step (r : Router) : Change → Router
  | .add route => (r.add route).router
  | .addGroup group => (r.addGroup group).router
  | .remove route => (r.remove route).router

def run (r : Router) (changes : List Change) : Router := changes.foldl step r

/-- some history of an empty router leads to this one -/
def Reachable (r : Router) : Prop := ∃ config changes, run (.empty config) changes = r

@[simp] theorem run_nil (r : Router) : run r [] = r := rfl

@[simp] theorem run_cons (r : Router) (c : Change) (cs : List Change) : run r (c :: cs) = run (step r c) cs := rfl

end UriRouting.Router
