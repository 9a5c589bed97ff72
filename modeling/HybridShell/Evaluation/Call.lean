import HybridShell.Evaluation.Run
import HybridShell.Pipeline.Wiring

/-!
# Calls

A function runs in a frame of its own.  So does an alias that is source text,
with streams of its own, which are restored afterwards.
-/

namespace HybridShell

namespace Call

def inUnit {α : Type} (unit : Nat) (body : Run α) : Run α := do
  let before := (← get).unit
  modify fun shell => { shell with unit }
  body.andFinally (modify fun shell => { shell with unit := before })

def bodyValue (body : Run Unit) : Run Value :=
  ExceptT.mk do
    match ← body.run with
    | .ok _ => return .ok .none
    | .error (.returned value) => return .ok value
    | .error error => return .error error

variable (inner : Interpreter)

def function (function : Function) (arguments : List Value) : Run Value := do
  if arguments.length ≠ function.parameters.length then
    throw (.host (.type (.functionArguments function.name function.parameters.length
      arguments.length)))
  Run.inFrame function.name (.ofList (function.parameters.zip arguments))
    (inner.host (.function function.unit function.body))

def aliasVariables (arguments : List String) : Dictionary Value :=
  .ofList (("args", .list (arguments.tail.map .str))
    :: arguments.zipIdx.map fun (argument, index) => ("arg" ++ toString index, .str argument))

/-- Run the source text of an alias; its value is the last status. -/
def sourceAlias (text : String) (arguments : List String) : Run Value :=
  Run.inFrame (arguments.headD "") (aliasVariables arguments) do
    let _ ← inner.host (.aliasText text)
    return .int (Int64.ofInt (← get).lastReturncode)

def nestedValue (code : NestedAlias) (arguments : List String) : Run Value :=
  match code with
  | .source text => sourceAlias inner text arguments
  | .function defined => function inner defined (arguments.tail.map .str)

/-- Run something with other streams, and restore the streams and the last status afterwards. -/
def withStreams {α : Type} (streams : HostStreams) (body : Run α) : Run α := do
  let before ← get
  modify fun shell =>
    { shell with outputOverride := streams.output, inputOverride := streams.input }
  body.andFinally (modify fun shell =>
    { shell with
      outputOverride := before.outputOverride
      inputOverride := before.inputOverride
      lastReturncode := before.lastReturncode })

def nestedStatus (rounds : Nat) (name : String) :
    Except EvalError Value → Action (Except ProcessError Int)
  | .ok value => do
    match ← (Run.exitStatus rounds value).run with
    | .ok code => return .ok code
    | .error _ => return .ok 1
  | .error (.process .interrupted) => return .error .interrupted
  | .error (.exit code) => do
    Action.modifySession (·.requestExit code)
    return .ok code
  | .error error => do
    modify (·.complain ("duosh: " ++ name ++ ": " ++ error.message))
    return .ok (max error.exitCode 1)

def nested (code : NestedAlias) (arguments : List String) (streams : HostStreams) :
    Action (Except ProcessError Int) := do
  nestedStatus inner.rounds (arguments.headD "")
    (← (withStreams streams (nestedValue inner code arguments)).run)

end Call

end HybridShell
