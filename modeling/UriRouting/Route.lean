/-
Routes: a request method, a template and a handler, perhaps under a name. A route is known by its serial number and by
nothing else: two routes with the same method and template are still two. The handler is kept and handed back, never
looked into. Method and template may be missing until the route is registered.
-/
import UriRouting.Value

namespace UriRouting

namespace Method

/-- the method of routes that take part in every lookup -/
def all : Text := "ALL".toList

def get : Text := "GET".toList
def post : Text := "POST".toList
def put : Text := "PUT".toList
def patch : Text := "PATCH".toList
def delete : Text := "DELETE".toList
def head : Text := "HEAD".toList
def options : Text := "OPTIONS".toList
def connect : Text := "CONNECT".toList
def trace : Text := "TRACE".toList

def known : List Text := [get, post, put, patch, delete, head, options, connect, trace, all]

end Method

/-- what a route leads to -/
inductive Handler where
  | function (name : Text)
  | value (v : Value)
deriving Repr

/-- how a listing shows a handler: a function by its name, any other value as it is written -/
def Handler.label : Handler → Text
  | function name => name
  | value v => v.written

structure Route where
  serial : Nat
  method : Option Text
  template : Option Text
  handler : Handler
  name : Option Text
deriving Repr

namespace Route

def isSame (r s : Route) : Bool := r.serial == s.serial

/-- a lookup for the method considers the route -/
def isVisible (method : Text) (r : Route) : Bool := r.method == some method || r.method == some Method.all

/-- the name, unless it is missing or empty -/
def properName? (r : Route) : Option Text := r.name.filter (!·.isEmpty)

/-- method and template, as the log shows them -/
def shown (r : Route) : Text := r.method.getD [] ++ ' ' :: r.template.getD []

end Route

end UriRouting
