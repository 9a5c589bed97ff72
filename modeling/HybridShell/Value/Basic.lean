import HybridShell.Process.Signal
import HybridShell.Unit.Statement

/-!
# Values of the host language

Besides plain data there are handles on pipelines, functions defined by host
code, and the functions that are always there.
-/

namespace HybridShell

inductive Builtin where
  | print
  | len
  | str
  | int
  | float
  | bool
  | repr
  | range
  | type
  | list
  | exit
  | source
  | defineAlias
  | unalias
  | env
  deriving Repr, DecidableEq

namespace Builtin

def all : List Builtin :=
  [print, len, str, int, float, bool, repr, range, type, list, exit, source, defineAlias, unalias,
    env]

def name : Builtin → String
  | print => "print"
  | len => "len"
  | str => "str"
  | int => "int"
  | float => "float"
  | bool => "bool"
  | repr => "repr"
  | range => "range"
  | type => "type"
  | list => "list"
  | exit => "exit"
  | source => "source"
  | defineAlias => "alias"
  | unalias => "unalias"
  | env => "env"

def ofName? (text : String) : Option Builtin :=
  all.find? (·.name = text)

/-- Names that stay free for command lines, because a command has the same name. -/
def isCommandWord : Builtin → Bool
  | exit => true
  | _ => false

end Builtin

/--
A function defined by host code.  Two functions are the same when they come
from the same definition of the same unit.
-/
structure Function where
  unit : Nat
  place : Nat
  name : String
  parameters : List String
  body : List Statement

namespace Function

def same (left right : Function) : Bool :=
  left.unit == right.unit && left.place == right.place

end Function

structure PipelineHandle where
  number : Nat
  arguments : List (List String)

inductive Value where
  | none
  | bool (value : Bool)
  | int (value : Int64)
  | float (value : Float)
  | str (text : String)
  | list (items : List Value)
  | pipeline (handle : PipelineHandle)
  | function (function : Function)
  | builtin (builtin : Builtin)

namespace Value

instance : Inhabited Value := ⟨none⟩

def typeName : Value → String
  | none => "NoneType"
  | bool _ => "bool"
  | int _ => "int"
  | float _ => "float"
  | str _ => "str"
  | list _ => "list"
  | pipeline _ => "CommandPipeline"
  | function _ => "function"
  | builtin _ => "builtin_function"

def isNone : Value → Bool
  | none => true
  | _ => false

mutual

/-- Equality of values; an integer and a float are compared as floats. -/
def equal : Value → Value → Bool
  | none, none => true
  | bool left, bool right => left == right
  | int left, int right => left == right
  | float left, float right => left == right
  | int left, float right => left.toFloat == right
  | float left, int right => left == right.toFloat
  | str left, str right => left == right
  | list left, list right => equalItems left right
  | pipeline left, pipeline right => left.number == right.number
  | function left, function right => left.same right
  | builtin left, builtin right => left == right
  | _, _ => false

def equalItems : List Value → List Value → Bool
  | [], [] => true
  | left :: lefts, right :: rights => equal left right && equalItems lefts rights
  | _, _ => false

end

/--
Whether a value counts as true.  A pipeline is true when it succeeded, which
only the one who waited for it knows.
-/
def truthy (succeeded : PipelineHandle → Bool) : Value → Bool
  | none => false
  | bool value => value
  | int value => value != 0
  | float value => value != 0
  | str text => !text.isEmpty
  | list items => !items.isEmpty
  | pipeline handle => succeeded handle
  | function _ => true
  | builtin _ => true

def lowWord (value : Int64) : Int :=
  wrapped value.toInt

/--
The exit status that a value stands for when an alias returns it: an integer
is the status itself, anything else true is failure.
-/
def exitStatus (succeeded : PipelineHandle → Bool) : Value → Int
  | int value => lowWord value
  | value => if value.truthy succeeded then 1 else 0

end Value

end HybridShell
