/-
Routers. A router registers routes, finds the routes that match a request path, and renders URIs of routes.

Registering is all or nothing: each route is checked and compiled in turn, then the names are compared with those in
use and with one another, and the first failure is the answer. A lookup takes the context path off the request path
and tries the routes for the method in the order of registration. A rendered URI gets the context path in front.
-/
import UriRouting.Router.Table
import UriRouting.Router.Event
import UriRouting.Group.Basic
import UriRouting.Uri.Render

namespace UriRouting

structure Router where
  config : Config
  table : Router.Table
deriving Repr

namespace Router

structure Match where
  route : Route
  parameters : List (Text × Text)
deriving Repr

/-- what an operation answers, the router it leaves behind, and what it logs -/
structure Step (α : Type) where
  answer : Except Error α
  router : Router
  events : List Event

def empty (config : Config) : Router := ⟨config, .build []⟩

/-- the context path without the slashes at its end -/
def mount (r : Router) : Text := r.config.contextPath.dropTrailing '/'

def routes (r : Router) : List Route := r.table.entries.map Entry.route

/-- a route checked and compiled; template before method, method before what the template holds -/
def entryOf (config : Config) (route : Route) : Except Error Entry :=
  match route.template with
  | none | some [] => .error .emptyPattern
  | some template =>
    match route.method with
    | none => .error (.invalidMethod none)
    | some method =>
      if method ∈ Method.known then (Pattern.compile config template).map (⟨route, ·⟩)
      else .error (.invalidMethod (some method))

/-- the first name that is among the names in use or is the name of an earlier entry -/
def clash? (inUse : List Text) : List Entry → Option Text
  | [] => none
  | e :: rest =>
    match e.route.name with
    | none => clash? inUse rest
    | some name => if name ∈ inUse then some name else clash? (name :: inUse) rest

/-- the router with the routes registered behind its own -/
def register (r : Router) (routes : List Route) : Except Error Router :=
  match routes.mapM (entryOf r.config) with
  | .error e => .error e
  | .ok entries =>
    match clash? r.table.names entries with
    | some name => .error (.duplicateName name)
    | none => .ok { r with table := .build (r.table.entries ++ entries) }

/-- register routes, all or none -/
def addAll (r : Router) (routes : List Route) : Step (List Route) :=
  match r.register routes with
  | .ok s => ⟨.ok routes, s, routes.map .added⟩
  | .error e => ⟨.error e, r, []⟩

def add (r : Router) (route : Route) : Step (List Route) := r.addAll [route]

/-- register the routes of a group, all or none -/
def addGroup (r : Router) (group : Group) : Step (List Route) := r.addAll group.allRoutes

def contains (r : Router) (route : Route) : Bool := r.table.entries.any (·.route.isSame route)

def without (r : Router) (route : Route) : Router :=
  { r with table := .build (r.table.entries.filter (!·.route.isSame route)) }

/-- take a route out, wherever it stands; tells whether it was there -/
def remove (r : Router) (route : Route) : Step Bool :=
  if r.contains route then ⟨.ok true, r.without route, [.removed route]⟩ else ⟨.ok false, r, []⟩

/-- the routes that a lookup for the method considers; all routes without a method -/
def routesFor (r : Router) : Option Text → List Route
  | none => r.routes
  | some method => (r.table.candidates method).map Entry.route

/-- a request path without the context path -/
def strip (r : Router) (path : Text) : Text :=
  if r.mount.isEmpty then path
  else if path = r.mount then ['/']
  else if (Text.after? (r.mount ++ ['/']) path).isSome then path.drop r.mount.length
  else path

/-- the entries that match the path, in order; the first failure to read a match off is the answer -/
def matching (path : Text) : List Entry → Except Error (List Match)
  | [] => .ok []
  | e :: rest =>
    match e.pattern.parameters? path with
    | .error f => .error f
    | .ok none => matching path rest
    | .ok (some parameters) => (matching path rest).map (⟨e.route, parameters⟩ :: ·)

/-- the routes for the method that match the request path -/
def lookup (r : Router) (path method : Text) : Except Error (List Match) :=
  matching (r.strip path) (r.table.candidates method)

def find (r : Router) (path method : Text) : Step (List Match) :=
  let answer := r.lookup path method
  ⟨answer, r, match answer with | .ok [] => [.unmatched method (r.strip path)] | _ => []⟩

/-- a URI of the application as seen from outside -/
def outer (r : Router) (uri : Text) : Text := Uri.join r.mount uri

/-- the template that a target names: that of the route under this name, else the target itself -/
def templateOf (r : Router) (target : Text) : Text :=
  ((r.table.route? target).bind Route.template).getD target

def uriFor (r : Router) (target : Text) (parameters : Uri.Parameters) : Except Error Text :=
  if target.isEmpty then .error .emptyPattern
  else
    match Pattern.compile r.config (r.templateOf target) with
    | .error e => .error e
    | .ok pattern =>
      match Uri.render pattern.tokens parameters with
      | .error name => .error (.unresolvedParameter name (r.templateOf target))
      | .ok uri => .ok (r.outer uri)

/-- register routes one by one, up to the first failure -/
def addEach (r : Router) : List Route → Step Unit
  | [] => ⟨.ok (), r, []⟩
  | route :: rest =>
    match r.add route with
    | ⟨.error e, s, _⟩ => ⟨.error e, s, []⟩
    | ⟨.ok _, s, events⟩ =>
      let later := s.addEach rest
      { later with events := events ++ later.events }

end Router

end UriRouting
