/-
The three commands: list the routes of a router, show the routes that match a request, and render a URI.
-/
import UriRouting.CommandLine.Report

namespace UriRouting.CommandLine

/-- a row of the listing: method, template, and what the route leads to under which name -/
structure Line where
  method : Text
  template : Text
  label : Text
deriving DecidableEq, Repr

namespace Line

def ofRoute (r : Route) : Line :=
  ⟨r.method.getD [], r.template.getD [],
    match r.properName? with
    | some name => r.handler.label ++ ' ' :: '(' :: name ++ [')']
    | none => r.handler.label⟩

def text (methodWidth templateWidth : Nat) (l : Line) : Text :=
  Text.padRight methodWidth l.method ++ "  ".toList ++ Text.padRight templateWidth l.template ++ "  ".toList ++
    l.label ++ ['\n']

def heading : Line := ⟨"METHOD".toList, "PATTERN".toList, "HANDLER".toList⟩

def width (texts : List Text) : Nat := texts.foldl (fun n t => max n t.length) 0

/-- heading, rule and rows; the columns fit heading and rows, the rule is as long as the rows but ends at 80 -/
def table (lines : List Line) : Text :=
  let methodWidth := width ((heading :: lines).map method)
  let templateWidth := width ((heading :: lines).map template)
  let rule := min (methodWidth + templateWidth + 4 + width (lines.map label)) 80
  heading.text methodWidth templateWidth ++ List.replicate rule '-' ++ '\n' ::
    lines.flatMap (text methodWidth templateWidth)

end Line

def listing (r : Router) : Report :=
  .printing <|
    match r.routes with
    | [] => "No routes registered.\n".toList
    | routes => Line.table (routes.map Line.ofRoute)

/-- a match: its route, and below it the parameters -/
def matchText (m : Router.Match) : Text :=
  m.route.method.getD [] ++ "  ".toList ++ m.route.template.getD [] ++ "  ".toList ++ m.route.handler.label ++ '\n' ::
    m.parameters.flatMap fun (name, value) => "    ".toList ++ name ++ " = ".toList ++ value ++ ['\n']

/-- an error of the router: told to the user when it is about routing -/
def routerError (e : Error) : Report := if e.isRouting then .complaint e.message 1 else ⟨[], .escape e⟩

def noMatch (method path : Text) : Report := .failing ("No route matches ".toList ++ method ++ ' ' :: path) 1

def matching (method path : Text) (r : Router) : Report :=
  let step := r.find path method
  .behind step.events <|
    match step.answer with
    | .error e => ⟨[], .escape e⟩
    | .ok [] => noMatch method path
    | .ok found => .printing (found.flatMap matchText)

/-- the matches of a request that may lack a word. A path is needed first where there is a context path, then the
method, then the path if there is a route to try -/
def matchingWords (method? path? : Option Text) (r : Router) : Report :=
  match method?, path? with
  | some method, some path => matching method path r
  | none, some _ => ⟨[], .incomplete .method⟩
  | method?, none =>
    if !r.mount.isEmpty then ⟨[], .incomplete .outerPath⟩
    else
      match method? with
      | none => ⟨[], .incomplete .method⟩
      | some method =>
        if !(r.routesFor (some method)).isEmpty then ⟨[], .incomplete .path⟩
        else .behind [.untried method] (noMatch method "[]".toList)

/-- put a value under a key: where the key stands, or at the end -/
def put (pairs : Uri.Parameters) (key : Text) (v : Value) : Uri.Parameters :=
  if pairs.any (·.1 = key) then pairs.map fun p => if p.1 = key then (key, v) else p else pairs ++ [(key, v)]

/-- the pairs of words of the form `key=value`; the first word of another form is the failure -/
def readPairs (pairs : Uri.Parameters) : List Text → Except Text Uri.Parameters
  | [] => .ok pairs
  | word :: rest =>
    match word.cutAt '=' with
    | ([], _) | (_, none) => .error word
    | (key, some v) => readPairs (put pairs key (.text v)) rest

def rendering (target : Text) (parameters : Uri.Parameters) (r : Router) : Report :=
  match r.uriFor target parameters with
  | .ok uri => .printing (uri ++ ['\n'])
  | .error e => routerError e

/-- go on with the router that an import string names -/
def withRouter (modules : List Module) (target : Text) (next : Router → Report) : Report :=
  let found := resolve modules target
  .behind found.events <|
    match found.answer with
    | .ok r => next r
    | .error f => if f.isReported then .complaint f.message 1 else ⟨[], .noRouter f⟩

end UriRouting.CommandLine
