import HybridShell.Evaluation.Run

/-!
# Handles on pipelines

Asking a handle for anything that only an ended pipeline has waits for its
end.
-/

namespace HybridShell

namespace Handle

def texts (items : List String) : Value :=
  .list (items.map .str)

def number (value : Int) : Value :=
  .int (Int64.ofInt value)

def pipeline (handle : PipelineHandle) : Run Pipeline := do
  match (← get).pipeline? handle.number with
  | some pipeline => pure pipeline
  | none => Run.exhausted

def waiting {α : Type} (handle : PipelineHandle)
    (wait : Machine → Pipeline → Option (Waited (Except ProcessError α))) : Run α :=
  Run.ofProcess (Action.withPipeline handle.number wait)

def ended (rounds : Nat) (handle : PipelineHandle) : Run Pipeline := do
  let _ ← waiting handle (Pipeline.wait rounds)
  pipeline handle

def property (rounds : Nat) (handle : PipelineHandle) (name : String) : Run Value := do
  match name with
  | "returncode" | "rtn" => return number (← waiting handle (Pipeline.returncode rounds))
  | "output" | "out" => return .str (← waiting handle (Pipeline.outputOf rounds))
  | "errors" | "err" => return .str (← waiting handle (Pipeline.errorsOf rounds))
  | "lines" => return texts (← Run.waiting handle.number (Pipeline.lines rounds))
  | "pid" => return ((← pipeline handle).processIds.getLast?.map number).getD .none
  | "pids" => return .list ((← pipeline handle).processIds.map number)
  | "args" => return .list (handle.arguments.map texts)
  | "alias" => return ((← pipeline handle).lastAlias?.map Value.str).getD .none
  | "signal" =>
    match (← ended rounds handle).signal? with
    | some (signal, core) => return .list [.str signal, .bool core]
    | none => return .none
  | "starttime" => return .str (Clock.text (← pipeline handle).started)
  | "endtime" =>
    return ((← ended rounds handle).ended.map fun clock => .str (Clock.text clock)).getD .none
  | "executed_cmd" => return .str (← pipeline handle).executedCommand
  | other => throw (.host (.type (.noAttribute "CommandPipeline" other)))

/-- Call a method of a handle; an attribute can be called too. -/
def method (rounds : Nat) (handle : PipelineHandle) (name : String) : Run Value := do
  match name with
  | "wait" => return number (← waiting handle (Pipeline.wait rounds))
  | "poll" => return .bool (← Action.pollPipeline handle.number).isDone
  | "check" =>
    match (← ended rounds handle).failure? with
    | some failure => throw (.process failure)
    | none => return .none
  | "interrupt" =>
    Action.signalPipeline handle.number fun machine pipeline => pipeline.interrupt machine
    return .none
  | "terminate" =>
    Action.signalPipeline handle.number fun machine pipeline => pipeline.terminate machine
    return .none
  | other => property rounds handle other

end Handle

end HybridShell
