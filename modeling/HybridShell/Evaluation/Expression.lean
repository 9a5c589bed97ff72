import HybridShell.Evaluation.Builtins
import HybridShell.Evaluation.Chain
import HybridShell.Evaluation.Handle
import HybridShell.Value.Methods
import HybridShell.Value.Operators

/-!
# Evaluating expressions

Operands are evaluated from left to right.  A member that is called is a
method; only handles have attributes.
-/

namespace HybridShell

namespace ExpressionRun

/-- The value that a name is bound to, or the built-in function of that name. -/
def lookUp (name : String) : Run Value := do
  match (← get).lookUp? name with
  | some value => return value
  | none =>
    match Builtin.ofName? name with
    | some builtin => return .builtin builtin
    | none => throw (.host (.unbound name))

def textMethod (rounds : Nat) (text method : String) (arguments : List Value) : Run Value := do
  match method with
  | "join" => Run.ofHost (← Value.joinMethod (Run.plainText rounds) text arguments)
  | "format" => Run.ofHost (← Value.formatMethod (Run.plainText rounds) text arguments)
  | _ =>
    match Value.textMethod? text method arguments with
    | some result => Run.ofHost result
    | none => throw (.host (.type (.noMethod "str" method)))

def method (rounds : Nat) (receiver : Value) (name : String) (arguments : List Value) :
    Run Value :=
  match receiver with
  | .str text => textMethod rounds text name arguments
  | .list items => Run.ofHost (Value.listMethod items name arguments)
  | .pipeline handle => Handle.method rounds handle name
  | other => throw (.host (.type (.noMethod other.typeName name)))

variable (inner : Interpreter)

def call (callee : Value) (arguments : List Value) : Run Value :=
  match callee with
  | .function function => Call.function inner function arguments
  | .builtin builtin => builtin.call inner arguments
  | other => throw (.host (.type (.notCallable other.typeName)))

def logic (op : LogicOp) (left right : Expr) : Run Value := do
  let first ← inner.expression left
  match op, ← Run.truthy inner.rounds first with
  | .and, false => return first
  | .or, true => return first
  | _, _ => inner.expression right

def evaluate : Expr → Run Value
  | .int value => return .int value
  | .float value => return .float value
  | .str text => return .str text
  | .bool value => return .bool value
  | .none => return .none
  | .name name => lookUp name
  | .env name => Builtin.environmentValue name
  | .list items => return .list (← items.mapM inner.expression)
  | .neg operand => do Run.ofHost (← inner.expression operand).negate
  | .not operand => do
    return .bool (!(← Run.truthy inner.rounds (← inner.expression operand)))
  | .binary op left right => do
    let first ← inner.expression left
    let second ← inner.expression right
    Run.ofHost (Value.binary op first second)
  | .logic op left right => logic inner op left right
  | .call (.member base name) arguments => do
    let receiver ← inner.expression base
    let values ← arguments.mapM inner.expression
    method inner.rounds receiver name values
  | .call function arguments => do
    let callee ← inner.expression function
    let values ← arguments.mapM inner.expression
    call inner callee values
  | .index base position => do
    let container ← inner.expression base
    let index ← inner.expression position
    Run.ofHost (Value.subscript container index)
  | .member base name => do
    match ← inner.expression base with
    | .pipeline handle => Handle.property inner.rounds handle name
    | other => throw (.host (.type (.noAttribute other.typeName name)))
  | .subprocess capture chain => CommandRun.value inner capture chain

end ExpressionRun

end HybridShell
