/-
What a router logs.
-/
import UriRouting.Route

namespace UriRouting.Router

inductive Event where
  | added (route : Route)
  | removed (route : Route)
  /-- no route for the method matched the path -/
  | unmatched (method path : Text)
  /-- no route for the method, and no path to try one on -/
  | untried (method : Text)
deriving Repr

def Event.message : Event → Text
  | added route => "Added route ".toList ++ route.shown
  | removed route => "Removed route ".toList ++ route.shown
  | unmatched method path => "No route matches ".toList ++ method ++ ' ' :: path.quoted
  | untried method => "No route matches ".toList ++ method ++ " []".toList

end UriRouting.Router
