import HybridShell.Pipeline.Wiring
import HybridShell.Programs.Script.Run
import HybridShell.Session.Commands

/-!
# Starting pipelines

Stages start from left to right.  Processes and plain callables run beside the
shell; callables that need the shell and code run by the interpreter are done
before the next stage starts.  When a stage cannot start, those before it are
ended.
-/

namespace HybridShell

structure NestedRunner where
  run : NestedAlias → List String → HostStreams → Action (Except ProcessError Int)
  callStack : Action (List String)

namespace NestedRunner

def absent : NestedRunner where
  run _ arguments _ := return .error (.malformed (.needsInterpreter (arguments.headD "")))
  callStack := return []

end NestedRunner

structure Assembly where
  flag : Nat
  output : Option Nat
  errors : Option Nat
  stages : List Stage
  group : Option Int
  pipe : Option Nat
  observed : Option Observation

structure StageStreams where
  input : Endpoint
  output : Endpoint
  error : Endpoint
  deriving Repr, DecidableEq

namespace StageStreams

variable (streams : StageStreams)

def all : List Endpoint :=
  [streams.input, streams.output, streams.error]

def outputs : List (Option Endpoint) :=
  [some streams.output, some streams.error]

def pipe? (number : Nat) : Option Nat :=
  if streams.outputs.contains (some (.pipeWriter number)) then some number else none

def close (machine : Machine) : Machine :=
  machine.closeAll (streams.all.map some)

end StageStreams

namespace Assembly

variable (assembly : Assembly)

def inputEndpoint : InputPlan → Endpoint
  | .file number => .file number
  | .pipe => (assembly.pipe.map .pipeReader).getD .null
  | .null => .null
  | .host endpoint => endpoint
  | .terminal => .terminalInput

/-- Share what the surrounding code reads, and give up a pipe that nobody reads. -/
def openInput (machine : Machine) : InputPlan → Machine
  | .pipe => machine
  | .host endpoint => machine.shareEndpoint endpoint
  | _ => (assembly.pipe.map fun number => machine.closeEndpoint (.pipeReader number)).getD machine

/-- Open where a stream ends; the pipe to the next stage has the number that is next. -/
def openSink (pipe : Nat) (machine : Machine) : Sink → Endpoint × Machine
  | .file number => (.file number, machine)
  | .pipe => (.pipeWriter pipe, machine)
  | .captured => (.buffer (assembly.output.getD 0) false true, machine)
  | .complaints => (.buffer (assembly.errors.getD 0) false true, machine)
  | .host number => (.buffer number false false, machine)
  | .watched retain => (.buffer machine.buffers.size true true, machine.addBuffer retain)
  | .terminalOutput => (.terminalOutput, machine)
  | .terminalError => (.terminalError, machine)

def openStreams (plan : StagePlan) (machine : Machine) : StageStreams × Machine :=
  let input := assembly.inputEndpoint plan.input
  let (outputSink, errorSink) := plan.sinks
  let pipe := machine.pipes.size
  let writers := [outputSink, errorSink].count .pipe
  let reading := assembly.openInput machine plan.input
  let piped := if writers = 0 then reading else reading.addPipe writers
  let (output, opened) := assembly.openSink pipe piped outputSink
  if errorSink = outputSink then (⟨input, output, output⟩, opened)
  else
    let (error, all) := assembly.openSink pipe opened errorSink
    (⟨input, output, error⟩, all)

def observation? (plan : StagePlan) (streams : StageStreams) (machine : Machine) :
    Option Observation :=
  match plan.output, streams.output with
  | .to _, .buffer number _ _ => some ⟨number, (machine.buffer number).total⟩
  | _, _ => none

def defer (machine : Machine) : Endpoint → Endpoint × List (Nat × Endpoint) × Machine
  | .file number =>
    (.buffer machine.buffers.size false true, [(machine.buffers.size, .file number)],
      machine.addBuffer true)
  | .pipeWriter number =>
    (.buffer machine.buffers.size false true, [(machine.buffers.size, .pipeWriter number)],
      machine.addBuffer true)
  | other => (other, [], machine)

def deliver (machine : Machine) (deferred : List (Nat × Endpoint)) : Machine :=
  deferred.foldl
    (fun current (number, endpoint) =>
      current.writeTo (current.buffer number).contents endpoint)
    machine

def abort (machine : Machine) : Machine :=
  let told := machine.setFlag assembly.flag true
  let grouped := assembly.group.isSome
  let ended :=
    Pipeline.sendAll (Pipeline.sendAll told grouped Signal.terminate assembly.stages) grouped
      Signal.resume assembly.stages
  let close (current : Machine) (number : Nat) : Machine :=
    current.closeEndpoint (.buffer number false true)
  (assembly.output.toList ++ assembly.errors.toList).foldl close ended.settle

end Assembly

namespace CallResult

def conclude (name : String) : CallResult → Program Outcome
  | value result => .exit (result.exitStatus fun _ => false)
  | failed message => .sayAndExit .error (name ++ ": " ++ message ++ "\n") 1
  | interrupted => .done (.signaled Signal.interrupt false)
  | broken => .exit 1

end CallResult

namespace StageSpec

variable (spec : StageSpec)

def invocation (stack : Option (List String)) : Invocation :=
  { name := spec.name
    arguments := spec.arguments.tail
    directory := spec.directory
    environment := spec.environment
    stack }

/-- The program of a process that would start under the next number, if the file can be run. -/
def processProgram (machine : Machine) (path : String) : Except SystemError (Program Outcome) := do
  let directory ← machine.tree.canonical spec.directory
  let executable ← machine.tree.executable directory path
  let words := executable.commandLine spec.arguments
  pure (executable.utility.program Programs.sh
    ⟨words.headD "", words.tail, directory, spec.environment,
      Machine.processId machine.tasks.size⟩)

def callableProgram (rounds : Nat) (callable : CallableAlias) (stack : Option (List String)) :
    Action (Program Outcome) := do
  let call := spec.invocation stack
  let program ← match callable.action with
    | .program run => pure (run call)
    | .command command => CommandReport.program <$> command.perform rounds call
  return program.bind (·.conclude spec.name)

def longestArgument : Nat := 131071

def given : List String :=
  spec.arguments ++ spec.environment.entries.map fun (key, value) => key ++ "=" ++ value

def mostBytes : Nat := 2097152

/-- The bytes that texts take when a process starts: their ends and an address of each count. -/
def bytesOf (texts : List String) : Nat :=
  texts.foldl (fun total text => total + text.utf8ByteSize + 9) 0

def fits : Bool :=
  spec.given.all (fun text => text.utf8ByteSize ≤ longestArgument)
    && bytesOf spec.given ≤ mostBytes

def obstacle? (tree : FileTree) : Option SystemError :=
  if spec.given.any (·.contains '\x00') then some .zeroInArgument
  else
    match tree.find spec.directory with
    | .error error => some error
    | .ok entry =>
      if !entry.isDirectory then some .notDirectory
      else if spec.fits then none
      else some .argumentTooLong

def startProcess (path : String) (assembly : Assembly) (streams : StageStreams) :
    Action (Except ProcessError Stage) := do
  let machine := (← get).machine
  let cannotStart (error : SystemError) : Action (Except ProcessError Stage) := do
    Action.modifyMachine streams.close
    return .error (.cannotStart spec.name error)
  match spec.obstacle? machine.tree with
  | some error => cannotStart error
  | none =>
    match spec.processProgram machine path with
    | .error error => cannotStart error
    | .ok program =>
      Action.modifyMachine (·.spawn program streams.all assembly.flag true)
      return .ok (.running (.process machine.tasks.size))

def startWorker (rounds : Nat) (callable : CallableAlias) (stack : Option (List String))
    (assembly : Assembly) (streams : StageStreams) : Action (Except ProcessError Stage) := do
  let program ← spec.callableProgram rounds callable stack
  let task := (← get).machine.tasks.size
  Action.modifyMachine (·.spawn program streams.all assembly.flag false)
  return .ok (.running (.worker task))

def runInline (rounds : Nat) (callable : CallableAlias) (stack : Option (List String))
    (streams : StageStreams) : Action (Except ProcessError Stage) := do
  let program ← spec.callableProgram rounds callable stack
  let (output, outputFeeds, first) := Assembly.defer (← get).machine streams.output
  let (error, errorFeeds, second) := Assembly.defer first streams.error
  let started := second.spawn program [streams.input, output, error] Machine.sessionFlag false
  match started.finishTask second.tasks.size rounds with
  | none => failure
  | some (outcome, finished) =>
    Action.modifyMachine fun _ =>
      (Assembly.deliver finished (outputFeeds ++ errorFeeds)).closeAll streams.outputs
    if outcome.isInterrupted then
      Action.modifyMachine (·.setFlag Machine.sessionFlag false)
      return .error .interrupted
    else return .ok (.ended outcome)

/-- Where code that is run as a stage writes: a buffer, or none for the terminal. -/
def hostOutput (machine : Machine) :
    OutputPlan → Endpoint → Option Nat × List (Nat × Endpoint) × Machine
  | .merged, _ => (none, [], machine)
  | .to _, endpoint =>
    match Assembly.defer machine endpoint with
    | (.buffer number _ _, feeds, after) => (some number, feeds, after)
    | (_, feeds, after) => (none, feeds, after)

def runNested (runner : NestedRunner) (code : NestedAlias) (plan : StagePlan)
    (streams : StageStreams) : Action (Except ProcessError Stage) := do
  let input := if streams.input = .terminalInput then none else some streams.input
  if plan.error = .to .complaints then Action.modifyMachine (·.closeEndpoint streams.error)
  let (output, feeds, prepared) := hostOutput (← get).machine plan.output streams.output
  Action.modifyMachine fun _ => prepared
  match ← runner.run code spec.arguments ⟨input, output⟩ with
  | .error error =>
    Action.modifyMachine streams.close
    return .error error
  | .ok code =>
    Action.modifyMachine fun machine => streams.close (Assembly.deliver machine feeds)
    return .ok (.ended (.exited code))

/-- Start a stage, or run it to its end where the next stage has to wait for it. -/
def startStage (rounds : Nat) (runner : NestedRunner) (assembly : Assembly) (plan : StagePlan)
    (streams : StageStreams) : Action (Except ProcessError Stage) := do
  match spec.command with
  | .external path => spec.startProcess path assembly streams
  | .callable callable =>
    let stack ← if callable.wantsStack then some <$> runner.callStack else pure none
    if callable.mainThread then spec.runInline rounds callable stack streams
    else spec.startWorker rounds callable stack assembly streams
  | .nested code => spec.runNested runner code plan streams

end StageSpec

namespace Assembly

def push (assembly : Assembly) (grouped : Bool) (pipe : Option Nat) (observed : Option Observation)
    (stage : Stage) : Assembly :=
  { assembly with
    stages := assembly.stages ++ [stage]
    pipe
    observed
    group :=
      match assembly.group, stage.process? with
      | none, some task => if grouped then some (Machine.processId task) else none
      | group, _ => group }

def startAll (rounds : Nat) (runner : NestedRunner) (grouped : Bool) :
    Assembly → List (StageSpec × StagePlan) → Action (Except ProcessError Assembly)
  | assembly, [] => return .ok assembly
  | assembly, (spec, plan) :: rest => do
    let machine := (← get).machine
    let (streams, opened) := assembly.openStreams plan machine
    Action.modifyMachine fun _ => opened
    let observed := observation? plan streams opened
    match ← spec.startStage rounds runner assembly plan streams with
    | .error error =>
      Action.modifyMachine assembly.abort
      return .error error
    | .ok stage =>
      startAll rounds runner grouped
        (assembly.push grouped (streams.pipe? machine.pipes.size) observed stage) rest

def addBufferWhen (needed : Bool) : Action (Option Nat) := do
  if needed then
    let number := (← get).machine.buffers.size
    Action.modifyMachine (·.addBuffer true)
    return some number
  else return none

def closeUnless (attached : Bool) (buffer : Option Nat) : Action Unit :=
  match buffer with
  | some number =>
    if attached then pure ()
    else Action.modifyMachine (·.closeEndpoint (.buffer number false true))
  | none => pure ()

end Assembly

namespace Pipeline

def wiring (session : Session) (settings : Settings) (host : HostStreams) (last : StageSpec) :
    WiringContext :=
  ⟨last.capture, last.background, session.jobControl, settings.storeOutput, host⟩

def prepare (last : StageSpec) : Action Assembly := do
  let flag := (← get).machine.flags.size
  Action.modifyMachine Machine.addFlag
  let output ← Assembly.addBufferWhen last.capture.capturesStdout
  let errors ← Assembly.addBufferWhen (last.capture = .object)
  return ⟨flag, output, errors, [], none, none, none⟩

def ofAssembly (settings : Settings) (specs : List StageSpec) (last : StageSpec) (started : Nat)
    (assembly : Assembly) : Pipeline :=
  { arguments := specs.map (·.arguments)
    aliases := specs.map (·.aliasName)
    capture := last.capture
    background := last.background
    group := assembly.group
    output := assembly.output
    errors := assembly.errors
    observed := assembly.observed
    flag := assembly.flag
    interruptPending := false
    raises := settings.raiseOnFailure && last.capture = .object
    stages := assembly.stages
    verdict := none
    outputText := none
    started
    ended := none }

def assemble (rounds : Nat) (settings : Settings) (host : HostStreams) (runner : NestedRunner)
    (specs : List StageSpec) : Action (Except ProcessError Nat) := do
  match specs.getLast? with
  | none => return .error (.malformed .emptyPipeline)
  | some last =>
    let context := wiring (← Action.session) settings host last
    let plans := context.plan specs
    let started := (← get).machine.clock
    let prepared ← prepare last
    match ← Assembly.startAll rounds runner (context.jobControl || last.background) prepared
        (specs.zip plans) with
    | .error error => return .error error
    | .ok assembly =>
      Assembly.closeUnless (plans.any (·.output = .to .captured)) assembly.output
      Assembly.closeUnless (plans.any (·.error = .to .complaints)) assembly.errors
      let number := (← get).pipelines.size
      let pipeline := ofAssembly settings specs last started assembly
      modify fun shell => { shell with pipelines := shell.pipelines.add pipeline }
      return .ok number

end Pipeline

end HybridShell
