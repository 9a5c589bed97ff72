import HybridShell.Evaluation.Expression
import HybridShell.Unit.Reader

/-!
# Running statements

After every statement the run ends early if the end of the shell was
requested or the session was interrupted.
-/

namespace HybridShell

namespace StatementRun

variable (inner : Interpreter)

def assignItem (name : String) (position : Expr) (value : Value) : Run Unit := do
  let index ← inner.expression position
  match (← get).lookUp? name with
  | some (.list items) =>
    let slot ← Run.ofHost (Value.positionIn items.length index)
    modify (·.setVariable name (.list (items.set slot value)))
  | some other => throw (.host (.type (.noItemAssignment other.typeName)))
  | none => throw (.host (.unbound name))

def assign (target : Target) (value : Value) : Run Unit := do
  match target with
  | .name name => modify (·.setVariable name value)
  | .env name =>
    let text ← match value with
      | .none => pure none
      | other => some <$> Run.plainText inner.rounds other
    Action.modifySession (·.setVariable name text)
  | .index (.name name) position => assignItem inner name position value
  | .index _ _ => throw (.host (.type .unnamedItemAssignment))

def round (body : List Statement) : Run Bool :=
  ExceptT.mk do
    match ← (inner.block body).run with
    | .ok _ => return .ok true
    | .error .nextRound => return .ok true
    | .error .leftLoop => return .ok false
    | .error error => return .error error

def repeatWhile (condition : Expr) (body : List Statement) : Run Unit := do
  if ← Run.truthy inner.rounds (← inner.expression condition) then
    if ← round inner body then inner.repeatWhile condition body

def forEach (inner : Interpreter) (name : String) (body : List Statement) :
    List Value → Run Unit
  | [] => return
  | item :: rest => do
    modify (·.setVariable name item)
    if ← round inner body then forEach inner name body rest

def alternatives (inner : Interpreter) : Alternatives → Run Unit
  | .none => return
  | .otherwise body => inner.block body
  | .branch condition body rest => do
    if ← Run.truthy inner.rounds (← inner.expression condition) then inner.block body
    else alternatives inner rest

/-- Run a statement without a keyword; the value of an expression is its value. -/
def simple : SimpleStatement → Run Value
  | .expression expression => inner.expression expression
  | .assign target expression => do
    assign inner target (← inner.expression expression)
    return .none

def statement : Statement → Run Unit
  | .simple written => do let _ ← simple inner written
  | .undecided readings => do
    let decided ← Run.ofParse (decideUnit [.undecided readings] (← get).scope)
    inner.block decided
  | .conditional branches => alternatives inner branches
  | .whileLoop condition body => inner.repeatWhile condition body
  | .forLoop name expression body => do
    let items ← Run.items inner.rounds (← inner.expression expression)
    forEach inner name body items
  | .define place name parameters body =>
    modify fun shell =>
      shell.setVariable name (.function ⟨shell.unit, place, name, parameters, body⟩)
  | .returnValue none => throw (.returned .none)
  | .returnValue (some expression) => do throw (.returned (← inner.expression expression))
  | .breakLoop => throw .leftLoop
  | .continueLoop => throw .nextRound
  | .pass => return

def block (inner : Interpreter) : List Statement → Run Unit
  | [] => return
  | first :: rest => do
    statement inner first
    Run.checkSignals
    block inner rest

/-- Run a unit; its value is that of its last statement, if that is an expression. -/
def unitValue (inner : Interpreter) (last : Value) : List Statement → Run Value
  | [] => return last
  | first :: rest => do
    let value ← match first with
      | .simple (.expression expression) => inner.expression expression
      | other => do
        statement inner other
        pure .none
    Run.checkSignals
    unitValue inner value rest

/-- Read a source text, decide how its statements are read, and run it as a unit. -/
def source (text : String) : Run Value := do
  let read ← Run.ofParse (parseUnit text)
  let decided ← Run.ofParse (decideUnit read (← get).scope)
  let serial := (← get).units + 1
  modify fun shell => { shell with units := serial }
  Call.inUnit serial (unitValue inner .none decided)

def host : HostCode → Run Value
  | .function unit body => Call.inUnit unit (Call.bodyValue (block inner body))
  | .aliasText text => source inner text
  | .fileText text => source inner text

end StatementRun

namespace Interpreter

def ofDepth (rounds : Nat) : Nat → Interpreter
  | 0 => silent
  | depth + 1 =>
    { rounds
      expression := fun written => ExpressionRun.evaluate (ofDepth rounds depth) written
      captured := fun written => CommandRun.captured (ofDepth rounds depth) written
      block := fun statements => StatementRun.block (ofDepth rounds depth) statements
      repeatWhile := fun condition body =>
        StatementRun.repeatWhile (ofDepth rounds depth) condition body
      source := fun text => StatementRun.source (ofDepth rounds depth) text
      host := fun code => StatementRun.host (ofDepth rounds depth) code }

def generous : Interpreter :=
  ofDepth (Nat.pow 2 40) (Nat.pow 2 40)

end Interpreter

structure EvalResult where
  value : Value
  output : String
  code : Int

namespace Shell

def takeOutput (shell : Shell) : String × Shell :=
  match shell.collected with
  | none => ("", shell)
  | some (number, position) =>
    let bytes := (shell.machine.buffer number).contents
    (Utf8.decode (bytes.drop position), { shell with collected := some (number, bytes.length) })

/-- Evaluate a source text as a unit; after an early end the output stays collected. -/
def evaluate (interpreter : Interpreter) (text : String) : Run EvalResult := do
  let value ← interpreter.source text
  let (output, shell) := (← get).takeOutput
  set shell
  return ⟨value, output, shell.lastReturncode⟩

end Shell

end HybridShell
