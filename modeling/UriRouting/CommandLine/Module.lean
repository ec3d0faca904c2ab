/-
Modules and what they hold. Beside the attributes that a module is given it has those that every module has: its name,
empty notes on where it came from, its tables, and operations that can be called like a factory.
-/
import UriRouting.Router.Basic

namespace UriRouting.CommandLine

/-- what a module may hold under a name -/
inductive Attribute where
  | router (router : Router)
  | group (group : Group)
  | value (v : Value)
  /-- a function without parameters: what a call gives, or the message it fails with, and what it logs -/
  | factory (result : Except Text Attribute) (events : List Router.Event)
  /-- anything else, known by its kind -/
  | other (kind : Text)

structure Module where
  name : Text
  attributes : List (Text × Attribute)

def kindOf : Value → Text
  | .absent => "NoneType".toList
  | .truth _ => "bool".toList
  | .integer _ => "int".toList
  | .double _ => "float".toList
  | .text _ => "str".toList
  | .bytes _ => "bytes".toList
  | .list _ => "list".toList
  | .tuple _ => "tuple".toList
  | .mapping _ => "dict".toList

namespace Attribute

/-- something of the kind that a call gives -/
def giving (kind : String) : Attribute := factory (.ok (other kind.toList)) []

/-- an operation that fails when it is called without arguments -/
def failing (words : String) : Attribute := factory (.error words.toList) []

end Attribute

namespace Module

/-- the attributes that every module has; a module's own come before them -/
def standard (m : Module) : List (String × Attribute) :=
  [("__name__", .value (.text m.name)), ("__doc__", .value .absent), ("__loader__", .value .absent),
   ("__package__", .value .absent), ("__spec__", .value .absent), ("__dict__", .other "dict".toList),
   ("__annotations__", .other "dict".toList), ("__dir__", .giving "list"), ("__getstate__", .giving "dict"),
   ("__hash__", .giving "int"), ("__sizeof__", .giving "int"), ("__repr__", .giving "str"), ("__str__", .giving "str"),
   ("__init_subclass__", .giving "NoneType"), ("__subclasshook__", .giving "NotImplementedType"),
   ("__class__", .failing "module() missing required argument 'name' (pos 1)"),
   ("__init__", .failing "module() missing required argument 'name' (pos 1)"),
   ("__new__", .failing "module.__new__(): not enough arguments"),
   ("__reduce__", .failing "cannot pickle 'module' object"),
   ("__reduce_ex__", .failing "__reduce_ex__() takes exactly one argument (0 given)"),
   ("__format__", .failing "__format__() takes exactly one argument (0 given)"),
   ("__setattr__", .failing " expected 2 arguments, got 0"), ("__delattr__", .failing "expected 1 argument, got 0"),
   ("__getattribute__", .failing "expected 1 argument, got 0"), ("__eq__", .failing "expected 1 argument, got 0"),
   ("__ne__", .failing "expected 1 argument, got 0"), ("__lt__", .failing "expected 1 argument, got 0"),
   ("__le__", .failing "expected 1 argument, got 0"), ("__gt__", .failing "expected 1 argument, got 0"),
   ("__ge__", .failing "expected 1 argument, got 0")]

def attribute? (m : Module) (name : Text) : Option Attribute :=
  (m.attributes.lookup name).or (m.standard.lookup (String.ofList name))

end Module

end UriRouting.CommandLine
