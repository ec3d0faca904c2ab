/-
Sessions: one router and a set of labelled routes and groups, driven by commands. A label stands for the route or the
group it was given to last; a new route under an old label is a route of its own, and the old one stays where it is
registered. A command about a label that stands for nothing answers nothing.
-/
import UriRouting.Router.Basic
import UriRouting.Group.Forest

namespace UriRouting

/-- a router and the objects that commands speak about -/
structure Session where
  router : Router
  forest : Forest
  /-- labelled routes, the latest first -/
  routes : List (Text × Route)
  /-- labelled groups by their numbers, the latest first -/
  groups : List (Text × Nat)

namespace Session

/-- a route to be: what is given when it is made -/
structure Draft where
  label : Text
  method : Option Text
  template : Option Text
  name : Option Text
deriving Repr

inductive Command where
  | make (draft : Draft)
  /-- make a route and register it -/
  | addNew (draft : Draft)
  | add (route : Text)
  | remove (route : Text)
  /-- make a group, inside another when there is a parent -/
  | group (label base : Text) (parent : Option Text)
  /-- declare a route in a group -/
  | declare (group : Text) (draft : Draft)
  /-- put a route into a group as it is -/
  | append (group route : Text)
  /-- put a group into a group as it is -/
  | attach (group child : Text)
  | allRoutes (group : Text)
  | addGroup (group : Text)
  | routesFor (method : Option Text)
  | named (name : Text)
  | contains (route : Text)
  | count
  | list
  | find (path method : Text)
  | uriFor (target : Text) (parameters : Uri.Parameters)
  | outer (uri : Text)
  | config
deriving Repr

/-- what a command answers; routes are told by their labels -/
inductive Reply where
  | nothing
  | truth (b : Bool)
  | number (n : Nat)
  | text (t : Text)
  | definition (route : Route)
  | label (label : Text)
  | labels (labels : List Text)
  /-- the matching routes with their parameters -/
  | found (routes : List (Text × List (Text × Text)))
  | config (config : Config)
deriving Repr

/-- a command's answer, the session it leaves behind, and what it logs -/
structure Step where
  answer : Except Error Reply
  session : Session
  events : List Router.Event

def start (config : Config) : Session := ⟨.empty config, .empty, [], []⟩

/-- the label of a route; the empty text for one without -/
def labelOf (s : Session) (route : Route) : Text :=
  ((s.routes.find? (·.2.isSame route)).map Prod.fst).getD []

def labelsOf (s : Session) (routes : List Route) : List Text := routes.map s.labelOf

def registered (s : Session) : List Text := s.labelsOf s.router.routes

/-- the route that a draft describes: its serial number is new -/
def drawn (s : Session) (draft : Draft) : Route :=
  ⟨s.routes.length, draft.method, draft.template, .value .absent, draft.name⟩

/-- the session with one more labelled route -/
def keep (s : Session) (label : Text) (route : Route) : Session := { s with routes := (label, route) :: s.routes }

/-- an answer that changes nothing and logs nothing -/
def tell (s : Session) (reply : Reply) : Step := ⟨.ok reply, s, []⟩

/-- an operation of the router as a command's step -/
def along {α : Type} (s : Session) (step : Router.Step α) (reply : α → Reply) : Step :=
  ⟨step.answer.map reply, { s with router := step.router }, step.events⟩

/-- go on with what a label stands for -/
def about {α : Type} (s : Session) (objects : List (Text × α)) (label : Text) (next : α → Step) : Step :=
  match objects.lookup label with
  | some object => next object
  | none => s.tell .nothing

def step (s : Session) : Command → Step
  | .make draft =>
    let route := s.drawn draft
    (s.keep draft.label route).tell (.definition route)
  | .addNew draft =>
    let route := s.drawn draft
    let s := s.keep draft.label route
    s.along (s.router.add route) fun _ => .label draft.label
  | .add label => s.about s.routes label fun route => s.along (s.router.add route) fun _ => .label label
  | .remove label => s.about s.routes label fun route => s.along (s.router.remove route) .truth
  | .group label base none =>
    { s with forest := s.forest.plant base, groups := (label, s.forest.nodes.length) :: s.groups }.tell (.text base)
  | .group label base (some parent) =>
    s.about s.groups parent fun n =>
      let forest := s.forest.nest n base
      let child := s.forest.nodes.length
      { s with forest := forest, groups := (label, child) :: s.groups }.tell (.text (forest.baseOf child))
  | .declare group draft =>
    s.about s.groups group fun n =>
      let route := s.forest.placed n (s.drawn draft)
      { s.keep draft.label route with forest := s.forest.append n route }.tell (.definition route)
  | .append group label =>
    s.about s.groups group fun n => s.about s.routes label fun route =>
      { s with forest := s.forest.append n route }.tell .nothing
  | .attach group label =>
    s.about s.groups group fun n => s.about s.groups label fun child =>
      { s with forest := s.forest.attach n child }.tell .nothing
  | .allRoutes group => s.about s.groups group fun n => s.tell (.labels (s.labelsOf (s.forest.tree n).allRoutes))
  | .addGroup group =>
    s.about s.groups group fun n => s.along (s.router.addGroup (s.forest.tree n)) fun rs => .labels (s.labelsOf rs)
  | .routesFor method => s.tell (.labels (s.labelsOf (s.router.routesFor method)))
  | .named name =>
    match s.router.table.route? name with
    | some route => s.tell (.label (s.labelOf route))
    | none => s.tell .nothing
  | .contains label => s.about s.routes label fun route => s.tell (.truth (s.router.contains route))
  | .count => s.tell (.number s.router.table.entries.length)
  | .list => s.tell (.labels s.registered)
  | .find path method =>
    s.along (s.router.find path method) fun found => .found (found.map fun m => (s.labelOf m.route, m.parameters))
  | .uriFor target parameters => ⟨(s.router.uriFor target parameters).map .text, s, []⟩
  | .outer uri => s.tell (.text (s.router.outer uri))
  | .config => s.tell (.config s.router.config)

def run (s : Session) : List Command → List Step
  | [] => []
  | c :: rest =>
    let step := s.step c
    step :: step.session.run rest

end Session

end UriRouting
