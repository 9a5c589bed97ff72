import HybridShell.Machine.State
import HybridShell.Pipeline.Specification

/-!
# How stages are connected

The streams of every stage are planned from the redirections alone.  A file
that was named always wins; a stage whose output is not redirected feeds the
next one through a pipe of their own.
-/

namespace HybridShell

structure HostStreams where
  input : Option Endpoint
  output : Option Nat

namespace HostStreams

def terminal : HostStreams :=
  ⟨none, none⟩

end HostStreams

structure WiringContext where
  capture : Capture
  background : Bool
  jobControl : Bool
  storeOutput : Bool
  host : HostStreams

inductive InputPlan where
  | file (number : Nat)
  | pipe
  | null
  | host (endpoint : Endpoint)
  | terminal
  deriving Repr, DecidableEq

inductive Sink where
  | file (number : Nat)
  | pipe
  | captured
  | complaints
  | host (number : Nat)
  | watched (retain : Bool)
  | terminalOutput
  | terminalError
  deriving Repr, DecidableEq

inductive OutputPlan where
  | to (sink : Sink)
  | merged
  deriving Repr, DecidableEq

structure StagePlan where
  input : InputPlan
  output : OutputPlan
  error : OutputPlan
  deriving Repr, DecidableEq

inductive Predecessor where
  | absent
  | piped
  | redirected
  deriving Repr, DecidableEq

namespace WiringContext

variable (context : WiringContext)

def inputPlan (file : Option Nat) (before : Predecessor) : InputPlan :=
  match file, before with
  | some number, _ => .file number
  | none, .piped => .pipe
  | none, .redirected => .null
  | none, .absent =>
    if context.background && !context.jobControl then .null
    else
      match context.host.input with
      | some endpoint => .host endpoint
      | none => .terminal

def lastSink (threadable : Bool) : Sink :=
  if context.capture.capturesStdout then .captured
  else
    match context.host.output with
    | some number => .host number
    | none =>
      if context.capture = .hidden && threadable && !context.background then
        .watched context.storeOutput
      else .terminalOutput

def outputPlan (spec : StageSpec) (isLast : Bool) : OutputPlan :=
  match spec.output with
  | .file number => .to (.file number)
  | .merged => .merged
  | .standard => .to (if isLast then context.lastSink spec.threadable else .pipe)

def errorPlan (spec : StageSpec) (isLast : Bool) : OutputPlan :=
  match spec.error with
  | .file number => .to (.file number)
  | .merged => .merged
  | .standard =>
    .to (if isLast && context.capture = .object then .complaints else .terminalError)

def successor (plan : OutputPlan) : Predecessor :=
  if plan = .to .pipe then .piped else .redirected

def planFrom (context : WiringContext) (before : Predecessor) : List StageSpec → List StagePlan
  | [] => []
  | spec :: rest =>
    let output := context.outputPlan spec rest.isEmpty
    { input := context.inputPlan spec.input before
      output
      error := context.errorPlan spec rest.isEmpty } :: context.planFrom (successor output) rest

def plan (specs : List StageSpec) : List StagePlan :=
  context.planFrom .absent specs

end WiringContext

namespace StagePlan

/--
Where the two output streams of a stage end.  A stream that follows the other
goes where that one goes, and two streams that follow each other end at the
terminal's error stream.
-/
def sinks (plan : StagePlan) : Sink × Sink :=
  match plan.output, plan.error with
  | .to output, .to error => (output, error)
  | .to output, .merged => (output, output)
  | .merged, .to error => (error, error)
  | .merged, .merged => (.terminalError, .terminalError)

end StagePlan

end HybridShell
