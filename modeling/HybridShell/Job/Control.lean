import HybridShell.Session.Shell

/-!
# Job control

Jobs are looked at only when someone asks: a listing, a report or an
operation first finds out which jobs have ended or stopped.
-/

namespace HybridShell

structure JobInfo where
  id : Nat
  state : String
  text : String
  pids : List Int
  group : Option Int
  marker : Char
  returncode : Option Int
  startTime : String
  deriving Repr, DecidableEq

namespace JobInfo

/-- The line of a job: `[1]+ running: sleep 100 & (4242)`. -/
def line (info : JobInfo) : String :=
  let pid := match info.pids.getLast? with
    | some pid => " (" ++ toString pid ++ ")"
    | none => ""
  "[" ++ toString info.id ++ "]" ++ String.singleton info.marker ++ " " ++ info.state ++ ": "
    ++ info.text ++ pid

def jsonNumber : Option Int → String
  | some number => toString number
  | none => "null"

/-- Lines of a JSON array or object between its brackets, at a depth of indentation. -/
def jsonBlock (opening closing : String) (depth : Nat) (items : List String) : String :=
  if items.isEmpty then opening ++ closing
  else
    let indent (level : Nat) : String := String.ofList (List.replicate (2 * level) ' ')
    opening ++ "\n" ++ ",\n".intercalate (items.map (indent (depth + 1) ++ ·)) ++ "\n"
      ++ indent depth ++ closing

def json (info : JobInfo) : String :=
  jsonBlock "\x7b" "\x7d" 1
    ["\"id\": " ++ toString info.id,
      "\"state\": " ++ Text.jsonString info.state,
      "\"text\": " ++ Text.jsonString info.text,
      "\"pids\": " ++ jsonBlock "[" "]" 2 (info.pids.map toString),
      "\"pgid\": " ++ jsonNumber info.group,
      "\"marker\": " ++ Text.jsonString (String.singleton info.marker),
      "\"returncode\": " ++ jsonNumber info.returncode,
      "\"starttime\": " ++ Text.jsonString info.startTime]

def jsonDocument (infos : List JobInfo) : String :=
  jsonBlock "[" "]" 0 (infos.map json)

end JobInfo

namespace JobControl

def modifyTable (change : JobTable → JobTable) : Action Unit :=
  modify fun shell => { shell with jobs := change shell.jobs }

def putAs (id number : Nat) (pipeline : Pipeline) (state : JobState) : Action Unit :=
  modifyTable (·.put ⟨id, number, pipeline.group, pipeline.displayText, state⟩)

def add (number : Nat) (pipeline : Pipeline) (state : JobState) : Action Nat := do
  let id := (← get).jobs.nextId
  putAs id number pipeline state
  return id

def addBackground (number : Nat) : Action (Option Nat) := do
  match (← get).pipeline? number with
  | none => return none
  | some pipeline =>
    if pipeline.hasProcesses then return some (← add number pipeline .background)
    else return none

def stateAfter (pipeline : Pipeline) (state : JobState) : JobState :=
  if pipeline.isDone then .done (pipeline.returncode?.getD 0)
  else if pipeline.isStopped then .stopped
  else state

def refreshJob (job : Job) : Action Unit := do
  if job.state.isDone then return
  let pipeline ← Action.pollPipeline job.pipeline
  modifyTable (·.setState job.id (stateAfter pipeline job.state))

def refresh : Action Unit := do
  (← get).jobs.jobs.forM refreshJob

def info (shell : Shell) (job : Job) : JobInfo :=
  let pipeline := shell.pipeline? job.pipeline
  { id := job.id
    state := job.state.display
    text := job.text
    pids := (pipeline.map Pipeline.processIds).getD []
    group := job.group
    marker := shell.jobs.marker job.id
    returncode := job.state.code?
    startTime := Clock.text ((pipeline.map Pipeline.started).getD 0) }

def infos (shell : Shell) (passes : Job → Bool) : List JobInfo :=
  (shell.jobs.jobs.filter passes).map (info shell)

def list : Action (List JobInfo) := do
  refresh
  return infos (← get) fun _ => true

def unfinished : Action (List JobInfo) := do
  refresh
  return infos (← get) (!·.state.isDone)

def reap : Action (List JobInfo) := do
  refresh
  let shell ← get
  let ended := shell.jobs.jobs.filter (·.state.isDone)
  modifyTable fun table => ended.foldl (fun current job => current.remove job.id) table
  return infos shell (·.state.isDone)

def stoppedStatus : Int :=
  128 + Signal.keyboardStop

/-- Wait for a pipeline in the foreground; one that stops becomes a job. -/
def waitAs (rounds number : Nat) (id? : Option Nat) : Action (Except ProcessError Int) := do
  match ← Action.withPipeline number (Pipeline.waitFor true rounds) with
  | .error error => return .error error
  | .ok (.finished code) => return .ok code
  | .ok .stopped =>
    match (← get).pipeline? number with
    | none => return .ok stoppedStatus
    | some pipeline =>
      let id ← match id? with
        | some id => do
          putAs id number pipeline .stopped
          pure id
        | none => add number pipeline .stopped
      modify (·.complain ("\n[" ++ toString id ++ "]+ stopped: " ++ pipeline.displayText))
      return .ok stoppedStatus

def waitForeground (rounds number : Nat) : Action (Except ProcessError Int) :=
  waitAs rounds number none

def foreground (rounds : Nat) (spec : Option String) : Action (Except JobError Int) := do
  let table := (← get).jobs
  match table.pick spec with
  | .error error => return .error error
  | .ok id =>
    match table.get? id with
    | none => return .error .noCurrentJob
    | some job =>
      modifyTable (·.remove id)
      modify (·.complain job.text)
      Action.resumePipeline job.pipeline
      return (← waitAs rounds job.pipeline (some id)).mapError .process

def background (spec : Option String) : Action (Except JobError Nat) := do
  refresh
  let table := (← get).jobs
  match table.pick spec with
  | .error error => return .error error
  | .ok id =>
    match table.get? id with
    | none => return .error .noCurrentJob
    | some job =>
      if job.state.isDone then return .error (.finished id)
      if job.state = .stopped then Action.resumePipeline job.pipeline
      modifyTable (·.setState id .background)
      let command := (((← get).pipeline? job.pipeline).map Pipeline.executedCommand).getD ""
      modify (·.complain ("[" ++ toString id ++ "]+ " ++ command ++ " &"))
      modifyTable (·.touch id)
      return .ok id

/-- Forget a job; one that stands still goes on. -/
def disown (spec : Option String) : Action (Except JobError Nat) := do
  let table := (← get).jobs
  match table.pick spec with
  | .error error => return .error error
  | .ok id =>
    modifyTable (·.remove id)
    match table.get? id with
    | some job => if job.state = .stopped then Action.resumePipeline job.pipeline
    | none => pure ()
    return .ok id

def waitUntil (asked : JobTable → Bool) : Nat → Action Unit
  | 0 => failure
  | rounds + 1 => do
    refresh
    let shell ← get
    if asked shell.jobs then return
    match shell.machine.passTime? with
    | none => failure
    | some machine =>
      set { shell with machine }
      waitUntil asked rounds

def terminate (id : Nat) : Action Unit := do
  match (← get).jobs.get? id with
  | some job => Action.signalPipeline job.pipeline fun machine pipeline =>
    pipeline.terminate machine
  | none => pure ()

def hangUpAll : Action Unit := do
  (← get).jobs.jobs.forM fun job =>
    if job.state.isDone then pure () else terminate job.id

end JobControl

end HybridShell
