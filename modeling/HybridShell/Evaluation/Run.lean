import HybridShell.Session.Shell
import HybridShell.Value.Fault

/-!
# Runs

A run is an action that may end early, because something failed or because the
program said so.  Each layer of evaluation says how one construct is evaluated,
given an interpreter for its parts.
-/

namespace HybridShell

inductive EvalError where
  | parse (error : ParseError)
  | process (error : ProcessError)
  | host (fault : HostFault)
  | system (error : SystemError)
  | recursion
  | returned (value : Value)
  | leftLoop
  | nextRound
  | exit (code : Int)

namespace EvalError

def message : EvalError → String
  | parse error => error.message
  | process error => error.message
  | host fault => fault.message
  | system error => "IO error: " ++ error.message
  | recursion => "maximum recursion depth exceeded"
  | returned _ => "'return' outside function"
  | leftLoop => "'break' outside loop"
  | nextRound => "'continue' outside loop"
  | exit code => "exit " ++ toString code

def exitCode : EvalError → Int
  | process error => error.exitCode
  | exit code => code
  | _ => 1

def isInterrupt : EvalError → Bool
  | process .interrupted => true
  | _ => false

end EvalError

abbrev Run := ExceptT EvalError Action

namespace Run

variable {α : Type}

def exhausted : Run α :=
  ExceptT.mk (fun _ => none)

def ofHost : Except HostFault α → Run α
  | .ok value => pure value
  | .error fault => throw (.host fault)

def ofParse : Except ParseError α → Run α
  | .ok value => pure value
  | .error error => throw (.parse error)

def ofProcess (action : Action (Except ProcessError α)) : Run α :=
  ExceptT.mk do return (← action).mapError .process

def andFinally (run : Run α) (after : Action Unit) : Run α :=
  ExceptT.mk do
    let result ← run.run
    after
    return result

/-- End early when the end of the shell was requested or the session was interrupted. -/
def checkSignals : Run Unit := do
  let shell ← get
  match shell.session.exitRequest with
  | some code =>
    set { shell with session := { shell.session with exitRequest := none } }
    throw (.exit code)
  | none =>
    if shell.machine.isRaised Machine.sessionFlag then
      set { shell with machine := shell.machine.setFlag Machine.sessionFlag false }
      throw (.process .interrupted)

def waiting (number : Nat) (wait : Machine → Pipeline → Option (Waited α)) : Run α :=
  ExceptT.lift (Action.withPipeline number wait)

variable (rounds : Nat)

/-- Whether a value counts as true; a pipeline is waited for. -/
def truthy : Value → Run Bool
  | .pipeline handle => waiting handle.number (Pipeline.succeeded rounds)
  | value => return value.truthy fun _ => false

/-- The exit status that a value stands for; a pipeline is waited for. -/
def exitStatus (value : Value) : Run Int := do
  let truth ← truthy rounds value
  return value.exitStatus fun _ => truth

/-- The plain text of a value; a pipeline is waited for, and one that fails has none. -/
def plainText : Value → Run String
  | .pipeline handle => do
    match ← waiting handle.number (Pipeline.outputOf rounds) with
    | .ok text => return text
    | .error _ => return ""
  | value => return value.text fun _ => ""

def spliceArguments : Value → Run (List String)
  | .none => return []
  | .list items => items.mapM (plainText rounds)
  | value => return [← plainText rounds value]

def items : Value → Run (List Value)
  | .list items => return items
  | .str text => return text.toList.map fun character => .str (String.singleton character)
  | .pipeline handle => do
    let lines ← waiting handle.number (Pipeline.lines rounds)
    return lines.map .str
  | other => throw (.host (.type (.notIterable other.typeName)))

def inFrame (name : String) (locals : Dictionary Value) (body : Run α) : Run α := do
  let shell ← get
  if shell.session.settings.maxRecursion ≤ shell.frames.length then throw .recursion
  set { shell with frames := ⟨name, locals⟩ :: shell.frames }
  body.andFinally (modify fun shell => { shell with frames := shell.frames.tail })

def outsideCalls (body : Run α) : Run α := do
  let shell ← get
  set { shell with frames := [] }
  body.andFinally (modify fun after => { after with frames := shell.frames })

end Run

/-- Code that runs as an evaluation of its own. -/
inductive HostCode where
  | function (unit : Nat) (body : List Statement)
  | aliasText (text : String)
  | fileText (text : String)

structure Interpreter where
  rounds : Nat
  expression : Expr → Run Value
  captured : Chain → Run String
  block : List Statement → Run Unit
  repeatWhile : Expr → List Statement → Run Unit
  source : String → Run Value
  host : HostCode → Run Value

namespace Interpreter

def silent : Interpreter where
  rounds := 0
  expression _ := Run.exhausted
  captured _ := Run.exhausted
  block _ := Run.exhausted
  repeatWhile _ _ := Run.exhausted
  source _ := Run.exhausted
  host _ := Run.exhausted

end Interpreter

end HybridShell
