import HybridShell.Machine.Run

/-!
# Started pipelines

Looking at the stages of a pipeline shows which have ended or stopped.  Once all
have ended, the last one decides the status, unless it was silent and an earlier
one was killed: then the leftmost killed stage decides, so that a broken producer
is not hidden behind a consumer that had nothing to do.
-/

namespace HybridShell

/-- The stage that decided, and its return code. -/
structure Verdict where
  returncode : Int
  deciding : Nat
  deriving Repr, DecidableEq

namespace Outcome

def isKilled : Outcome → Bool
  | exited _ => false
  | signaled signal _ => signal != Signal.brokenPipe

end Outcome

namespace Verdict

/--
Whether the last stage was silent: nothing was added to its output where it is
watched, or it ended well where it is not.
-/
def isSilent (lastCode : Int) (watched : Option Bool) : Bool :=
  watched.getD (lastCode == 0)

def codeAt (outcomes : List Outcome) (position : Nat) : Int :=
  (outcomes[position]?.map Outcome.returncode).getD 0

def ofOutcomes (outcomes : List Outcome) (watched : Option Bool) : Verdict :=
  let last := outcomes.length - 1
  let lastCode := codeAt outcomes last
  if isSilent lastCode watched then
    match (outcomes.take last).findIdx? Outcome.isKilled with
    | some position => ⟨codeAt outcomes position, position⟩
    | none => ⟨lastCode, last⟩
  else ⟨lastCode, last⟩

def outcome? (verdict : Verdict) (outcomes : List Outcome) : Option Outcome :=
  outcomes[verdict.deciding]?

def failure? (verdict : Verdict) (command : String) (outcomes : List Outcome) :
    Option ProcessError :=
  if verdict.returncode = 0 then none
  else
    match verdict.outcome? outcomes with
    | some (.signaled signal _) => some (.signaled command signal)
    | _ => some (.failed command verdict.returncode)

end Verdict

inductive StageHandle where
  | process (task : Nat)
  | worker (task : Nat)
  | inline
  deriving Repr, DecidableEq

structure Stage where
  handle : StageHandle
  outcome : Option Outcome
  stopped : Bool
  deriving Repr, DecidableEq

namespace Stage

def running (handle : StageHandle) : Stage :=
  ⟨handle, none, false⟩

def ended (outcome : Outcome) : Stage :=
  ⟨.inline, some outcome, false⟩

variable (stage : Stage)

def process? : Option Nat :=
  match stage.handle with
  | .process task => some task
  | _ => none

def isWorker : Bool :=
  match stage.handle with
  | .worker _ => true
  | _ => false

def isStopped : Bool :=
  stage.stopped && stage.outcome.isNone

def isInterrupted : Bool :=
  stage.isWorker && stage.outcome.any Outcome.isInterrupted

def look (machine : Machine) (stage : Stage) : Stage :=
  match stage.outcome, stage.handle with
  | some _, _ => stage
  | none, .inline => { stage with outcome := some (.exited 0) }
  | none, .process task | none, .worker task =>
    match machine.taskState? task with
    | some (.ended outcome) => { stage with outcome := some outcome, stopped := false }
    | some (.stopped _) => { stage with stopped := true }
    | _ => stage

end Stage

/-- A buffer that the last stage writes to, and how much it held before. -/
structure Observation where
  buffer : Nat
  base : Nat
  deriving Repr, DecidableEq

structure Pipeline where
  arguments : List (List String)
  aliases : List (Option String)
  capture : Capture
  background : Bool
  group : Option Int
  output : Option Nat
  errors : Option Nat
  observed : Option Observation
  flag : Nat
  interruptPending : Bool
  raises : Bool
  stages : List Stage
  verdict : Option Verdict
  outputText : Option String
  started : Nat
  ended : Option Nat

namespace Pipeline

variable (pipeline : Pipeline) (machine : Machine)

def executedCommand : String :=
  " | ".intercalate (pipeline.arguments.map (" ".intercalate ·))

def displayText : String :=
  if pipeline.background then pipeline.executedCommand ++ " &" else pipeline.executedCommand

def lastAlias? : Option String :=
  pipeline.aliases.getLast?.join

def processes : List Nat :=
  pipeline.stages.filterMap Stage.process?

def processIds : List Int :=
  pipeline.processes.map Machine.processId

def hasProcesses : Bool :=
  !pipeline.processes.isEmpty

def isDone : Bool :=
  pipeline.verdict.isSome

def isStopped : Bool :=
  pipeline.stages.any Stage.isStopped

def outcomes : List Outcome :=
  pipeline.stages.map fun stage => stage.outcome.getD (.exited 0)

def returncode? : Option Int :=
  pipeline.verdict.map (·.returncode)

def decidingOutcome? : Option Outcome :=
  pipeline.verdict.bind (·.outcome? pipeline.outcomes)

def signal? : Option (String × Bool) :=
  pipeline.decidingOutcome?.bind Outcome.signal?

def failure? : Option ProcessError :=
  pipeline.verdict.bind (·.failure? pipeline.executedCommand pipeline.outcomes)

def isSilent? (pipeline : Pipeline) : Option Bool :=
  pipeline.observed.map fun seen => (machine.buffer seen.buffer).total == seen.base

def announcement? : Option String :=
  match pipeline.decidingOutcome? with
  | some (.signaled signal core) => Signal.deathMessage? signal core
  | _ => none

/--
Look at the stages, and settle the verdict when all have ended and nothing
that they started still writes to where output is collected.
-/
def poll (pipeline : Pipeline) : Machine × Pipeline :=
  if pipeline.isDone then (machine, pipeline)
  else
    let settled := machine.settle
    let stages := pipeline.stages.map (Stage.look settled)
    let gaveUp := (pipeline.stages.zip stages).any fun (before, after) =>
      before.outcome.isNone && after.isInterrupted
    let seen := { pipeline with
      stages, interruptPending := pipeline.interruptPending || gaveUp }
    let collecting := stages.any fun stage => stage.process?.any settled.isCollecting
    if stages.all (·.outcome.isSome) && !collecting then
      let decided := { seen with
        verdict := some (.ofOutcomes seen.outcomes (seen.isSilent? settled))
        ended := some settled.clock }
      match decided.announcement? with
      | some text => (settled.complain (Utf8.encode (text ++ "\n")), decided)
      | none => (settled, decided)
    else (settled, seen)

/--
Send a signal to every stage that is a process and has not been seen to end.
In a process group it reaches all processes that the stages started, also
those that outlived their stage.
-/
def sendAll (grouped : Bool) (signal : Int) (stages : List Stage) : Machine :=
  stages.foldl
    (fun current stage =>
      match stage.process? with
      | none => current
      | some task =>
        if grouped then current.sendSignalToAll task signal
        else if stage.outcome.isNone then current.sendSignal task signal
        else current)
    machine

def interrupt (pipeline : Pipeline) : Machine :=
  sendAll (machine.setFlag pipeline.flag true) pipeline.group.isSome Signal.interrupt
    pipeline.stages

/-- Ask the processes to end, also those that stand still, and the callables to give up. -/
def terminate (pipeline : Pipeline) : Machine :=
  let told := machine.setFlag pipeline.flag true
  if pipeline.isDone then told
  else
    let grouped := pipeline.group.isSome
    sendAll (sendAll told grouped Signal.terminate pipeline.stages) grouped Signal.resume
      pipeline.stages

def resume (pipeline : Pipeline) : Machine × Pipeline :=
  (sendAll machine pipeline.group.isSome Signal.resume pipeline.stages,
    { pipeline with stages := pipeline.stages.map fun stage => { stage with stopped := false } })

end Pipeline

end HybridShell
