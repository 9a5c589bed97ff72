import HybridShell.Machine.State

/-!
# Running programs

A task runs until it ends, has to wait, or starts another one.  Time passes
only when every task waits: the clock then jumps to the next moment at which a
sleeper wakes.
-/

namespace HybridShell

namespace Machine

def endpointAt (descriptors : List (Option Endpoint)) (descriptor : Descriptor) : Endpoint :=
  (descriptors[descriptor]?.join).getD .null

def released (descriptors : List (Option Endpoint)) (descriptor : Descriptor) :
    List (Option Endpoint) :=
  ((descriptors.set descriptor none).reverse.dropWhile Option.isNone).reverse

variable (machine : Machine)

def taskState? (number : Nat) : Option TaskState :=
  (machine.tasks.get? number).map (·.state)

/-- How the process with an identifier ended; one that never was counts as ended. -/
def processOutcome? (process : Int) : Option Outcome :=
  match machine.taskOf? process with
  | none => some (.exited 127)
  | some number => (machine.taskState? number).bind TaskState.outcome?

/-- What is left of a task when it is stopped now: a sleeper sleeps the rest of its time. -/
def leftOver? : TaskState → Option (Program Outcome)
  | .sleeping wake program => some (.sleep (wake - machine.clock) fun _ => program)
  | other => other.program?

structure Step where
  machine : Machine
  task : Task

def finish (task : Task) (outcome : Outcome) : Step :=
  ⟨machine.closeAll task.descriptors, { task with state := .ended outcome, descriptors := [] }⟩

def suffer (task : Task) (program : Program Outcome) (signal : Int) : Step :=
  if task.ignored.contains signal then ⟨machine, task⟩
  else if task.caught.contains signal then
    ⟨machine, { task with arrived := task.arrived ++ [signal] }⟩
  else
    match Signal.effect signal with
    | .nothing => ⟨machine, task⟩
    | .continues =>
      ⟨machine, if task.state.isStopped then { task with state := .ready program } else task⟩
    | .stops => ⟨machine, { task with state := .stopped program }⟩
    | .ends => finish machine task (.signaled signal false)

def sendSignal (number : Nat) (signal : Int) : Machine :=
  match machine.tasks.get? number with
  | none => machine
  | some task =>
    match task.isProcess, machine.leftOver? task.state with
    | true, some program =>
      let step := machine.suffer task program signal
      { step.machine with tasks := step.machine.tasks.set number step.task }
    | _, _ => machine

def descendsFrom (machine : Machine) (ancestor : Nat) : Nat → Nat → Bool
  | 0, _ => false
  | generations + 1, number =>
    match (machine.tasks.get? number).bind (·.parent) with
    | none => false
    | some parent => parent == ancestor || machine.descendsFrom ancestor generations parent

def descendants (ancestor : Nat) : List Nat :=
  (List.range machine.tasks.size).filter (machine.descendsFrom ancestor machine.tasks.size)

def sendSignalToAll (number : Nat) (signal : Int) : Machine :=
  (number :: machine.descendants number).foldl (fun current task => current.sendSignal task signal)
    machine

def isCollecting (number : Nat) : Bool :=
  (machine.descendants number).any fun descendant =>
    (machine.tasks.get? descendant).any fun task =>
      task.descriptors.any fun slot => slot.any Endpoint.isBuffer

def runProgram (number : Nat) (machine : Machine) (task : Task) : Program Outcome → Step
  | .done outcome => finish machine task outcome
  | .halt outcome => finish machine task outcome
  | .read source portion next =>
    match machine.readFrom portion (endpointAt task.descriptors source) with
    | .later => ⟨machine, { task with state := .waiting (.read source portion next) }⟩
    | .finished => runProgram number machine task (next none)
    | .bytes chunk after => runProgram number after task (next (some chunk))
  | .write sink bytes next =>
    let endpoint := endpointAt task.descriptors sink
    match if bytes.isEmpty then .possible else machine.writing endpoint with
    | .possible => runProgram number (machine.writeTo bytes endpoint) task (next ())
    | .later => ⟨machine, { task with state := .waiting (.write sink bytes next) }⟩
    | .broken =>
      if task.isProcess && !task.ignored.contains Signal.brokenPipe then
        finish machine task (.signaled Signal.brokenPipe false)
      else runProgram number machine task (next ())
  | .openFile path mode next =>
    match machine.openFile path mode with
    | .error error => runProgram number machine task (next (.error error))
    | .ok after =>
      let opened := task.descriptors ++ [some (.file machine.files.size)]
      runProgram number after { task with descriptors := opened }
        (next (.ok task.descriptors.length))
  | .makePipe next =>
    let pipe := machine.pipes.size
    let opened := task.descriptors ++ [some (.pipeReader pipe), some (.pipeWriter pipe)]
    runProgram number (machine.addPipe 1) { task with descriptors := opened }
      (next task.descriptors.length (task.descriptors.length + 1))
  | .close descriptor next =>
    runProgram number (machine.closeEndpoint (endpointAt task.descriptors descriptor))
      { task with descriptors := released task.descriptors descriptor } (next ())
  | .adopt streams next =>
    let adopted := streams.map fun stream => some (endpointAt task.descriptors stream)
    runProgram number ((machine.shareAll adopted).closeAll task.descriptors)
      { task with descriptors := adopted } (next ())
  | .inspect path next =>
    runProgram number machine task (next ((machine.tree.find? path).map Entry.kind))
  | .inspectStream source next =>
    runProgram number machine task (next (machine.kindOf? (endpointAt task.descriptors source)))
  | .wouldMeet source sink next =>
    runProgram number machine task
      (next (machine.wouldMeet (endpointAt task.descriptors source)
        (endpointAt task.descriptors sink)))
  | .listNames path next => runProgram number machine task (next (machine.tree.listNames path))
  | .load directory path next =>
    runProgram number machine task (next (machine.tree.executable directory path))
  | .fork next =>
    let process := processId machine.tasks.size
    let started : Task :=
      { task with
        state := .ready (next true process), parent := some number, caught := [], arrived := [] }
    ⟨{ machine.shareAll task.descriptors with tasks := machine.tasks.add started },
      { task with state := .ready (next false process) }⟩
  | .await process next =>
    match machine.processOutcome? process with
    | some outcome => runProgram number machine task (next outcome)
    | none => ⟨machine, { task with state := .waiting (.await process next) }⟩
  | .sendSignal process signal next =>
    match machine.taskOf? process with
    | none => runProgram number machine task (next false)
    | some target =>
      if signal = 0 then runProgram number machine task (next true)
      else if target = number then
        machine.suffer { task with state := .ready (next true) } (next true) signal
      else runProgram number (machine.sendSignal target signal) task (next true)
  | .catchSignals caught ignored next =>
    runProgram number machine { task with caught, ignored } (next ())
  | .takeSignals next =>
    runProgram number machine { task with arrived := [] } (next task.arrived)
  | .sleep milliseconds next =>
    ⟨machine, { task with state := .sleeping (machine.clock + milliseconds) (next ()) }⟩
  | .stop next => ⟨machine, { task with state := .stopped (next ()) }⟩
  | .checkInterrupt next => runProgram number machine task (next (machine.isRaised task.flag))
  | .awaitInterrupt next =>
    if machine.isRaised task.flag then runProgram number machine task (next ())
    else ⟨machine, { task with state := .waiting (.awaitInterrupt next) }⟩
  | .raiseInterrupt next => runProgram number (machine.setFlag sessionFlag true) task (next ())

def isOver (task : Task) : Program Outcome → Bool
  | .read source portion _ =>
    match machine.readFrom portion (endpointAt task.descriptors source) with
    | .later => false
    | _ => true
  | .write sink _ _ => machine.writing (endpointAt task.descriptors sink) ≠ .later
  | .await process _ => (machine.processOutcome? process).isSome
  | .awaitInterrupt _ => machine.isRaised task.flag
  | _ => true

def runnable? (task : Task) : Option (Program Outcome) :=
  match task.state with
  | .ready program => some program
  | .waiting program => if machine.isOver task program then some program else none
  | .sleeping wake program => if wake ≤ machine.clock then some program else none
  | .stopped _ => none
  | .ended _ => none

def isBusy : Bool :=
  machine.tasks.items.any fun task => (machine.runnable? task).isSome

def advanceTask (number : Nat) : Machine :=
  match machine.tasks.get? number with
  | none => machine
  | some task =>
    match machine.runnable? task with
    | none => machine
    | some program =>
      let step := runProgram number machine task program
      { step.machine with tasks := step.machine.tasks.set number step.task }

def takeTurns : Machine :=
  (List.range machine.tasks.size).foldl advanceTask machine

def settleWithin : Nat → Machine → Machine
  | 0, machine => machine
  | turns + 1, machine => if machine.isBusy then settleWithin turns machine.takeTurns else machine

def manyTurns : Nat := Nat.pow 2 40

def settle : Machine :=
  settleWithin manyTurns machine

def spawn (program : Program Outcome) (descriptors : List Endpoint) (flag : Nat)
    (isProcess : Bool) : Machine :=
  let task : Task := ⟨.ready program, descriptors.map some, flag, isProcess, none, [], [], []⟩
  { machine with tasks := machine.tasks.add task }.settle

def nextWake? : Option Nat :=
  (machine.tasks.toList.filterMap fun task =>
    match task.state with
    | .sleeping wake _ => some wake
    | _ => none).min?

def passTime? : Option Machine :=
  machine.nextWake?.map fun wake => { machine with clock := max machine.clock wake }.settle

/-- Let time pass until the task of a number has ended, for a number of rounds at most. -/
def finishTask (number : Nat) : Nat → Machine → Option (Outcome × Machine)
  | 0, _ => none
  | rounds + 1, machine =>
    match (machine.taskState? number).bind TaskState.outcome? with
    | some outcome => some (outcome, machine)
    | none => machine.passTime?.bind (finishTask number rounds)

end Machine

end HybridShell
