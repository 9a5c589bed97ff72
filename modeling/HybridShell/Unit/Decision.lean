import HybridShell.Unit.Statement

/-!
# Deciding between readings

One pass picks a reading for every simple statement, from the names that are
bound when it starts.  Bindings reach everything after them in the text; those
made inside a function body stay inside it.
-/

namespace HybridShell

abbrev Scope := List String

namespace Scope

def bind (scope : Scope) (name : String) : Scope :=
  name :: scope

def bindAll (scope : Scope) (names : List String) : Scope :=
  names ++ scope

end Scope

namespace SimpleStatement

def scopeAfter (statement : SimpleStatement) (scope : Scope) : Scope :=
  match statement with
  | assign (.name name) _ => scope.bind name
  | _ => scope

end SimpleStatement

namespace Statement

def startsUnbound (statement : Statement) (scope : Scope) : Bool :=
  match statement with
  | simple (.expression tree) => tree.leftmostName?.any fun name => !scope.contains name
  | _ => false

end Statement

namespace Decision

mutual

def block (scope : Scope) : List Statement → Except ParseError (List Statement × Scope)
  | [] => .ok ([], scope)
  | first :: rest =>
    match statement scope first with
    | .error error => .error error
    | .ok (decided, after) =>
      match block after rest with
      | .error error => .error error
      | .ok (others, final) => .ok (decided :: others, final)

def statement (scope : Scope) : Statement → Except ParseError (Statement × Scope)
  | .simple simple => .ok (.simple simple, simple.scopeAfter scope)
  | .undecided readings => selected scope readings
  | .conditional branches =>
    match alternatives scope branches with
    | .error error => .error error
    | .ok (decided, after) => .ok (.conditional decided, after)
  | .whileLoop condition body =>
    match block scope body with
    | .error error => .error error
    | .ok (decided, after) => .ok (.whileLoop condition decided, after)
  | .forLoop name items body =>
    match block (scope.bind name) body with
    | .error error => .error error
    | .ok (decided, after) => .ok (.forLoop name items decided, after)
  | .define place name parameters body =>
    match block ((scope.bind name).bindAll parameters) body with
    | .error error => .error error
    | .ok (decided, _) => .ok (.define place name parameters decided, scope.bind name)
  | .returnValue value => .ok (.returnValue value, scope)
  | .breakLoop => .ok (.breakLoop, scope)
  | .continueLoop => .ok (.continueLoop, scope)
  | .pass => .ok (.pass, scope)

/--
Decide the reading that a scope selects.  With two valid readings the command
line is meant exactly when host code would start with an unbound name.
-/
def selected (scope : Scope) : Readings → Except ParseError (Statement × Scope)
  | ⟨.ok host, .ok command, _⟩ =>
    if host.startsUnbound scope then statement scope command else statement scope host
  | ⟨.ok host, .error _, _⟩ => statement scope host
  | ⟨.error _, .ok command, _⟩ => statement scope command
  | ⟨.error error, .error _, _⟩ => .error error

def alternatives (scope : Scope) : Alternatives → Except ParseError (Alternatives × Scope)
  | .none => .ok (.none, scope)
  | .otherwise body =>
    match block scope body with
    | .error error => .error error
    | .ok (decided, after) => .ok (.otherwise decided, after)
  | .branch condition body rest =>
    match block scope body with
    | .error error => .error error
    | .ok (decided, after) =>
      match alternatives after rest with
      | .error error => .error error
      | .ok (others, final) => .ok (.branch condition decided others, final)

end

end Decision

/--
Decide every open reading of a unit.  A statement without a valid reading
fails the whole unit with the error of its host reading.
-/
def decideUnit (unit : List Statement) (scope : Scope) : Except ParseError (List Statement) :=
  (Decision.block scope unit).map Prod.fst

end HybridShell
