import HybridShell.Job.Table
import HybridShell.Pipeline.Waiting
import HybridShell.Search.Resolution
import HybridShell.Settings
import HybridShell.Unit.Decision

/-!
# The shell

A session is what outlives one evaluation.  The shell is a session on a machine,
with the variables of the host program.  What it does is an action: a change of
the shell with a result, or no answer when the rounds for waiting are used up.
-/

namespace HybridShell

structure Session where
  directory : String
  environment : Dictionary String
  aliases : AliasTable
  cache : SearchCache
  exitRequest : Option Int
  interactive : Bool
  jobControl : Bool
  recordsMissing : Bool
  missing : List String

namespace Session

def standardAliases : AliasTable :=
  .ofList
    [("cd", (Alias.ofCommand "cd" .cd).onMainThread),
      ("exit", (Alias.ofCommand "exit" .exit).onMainThread),
      ("jobs", (Alias.ofCommand "jobs" .jobs).onMainThread),
      ("fg", (Alias.ofCommand "fg" .fg).onMainThread),
      ("bg", (Alias.ofCommand "bg" .bg).onMainThread),
      ("disown", (Alias.ofCommand "disown" .disown).onMainThread),
      ("unalias", (Alias.ofCommand "unalias" .unalias).onMainThread),
      ("rehash", (Alias.ofCommand "rehash" .rehash).onMainThread),
      ("which", Alias.ofCommand "which" .which),
      ("source", .nested (.source "source(args[0])"))]

def start (directory : String) (environment : Dictionary String) (interactive : Bool) : Session :=
  { directory, environment, interactive
    aliases := standardAliases
    cache := .empty
    exitRequest := none
    jobControl := false
    recordsMissing := false
    missing := [] }

variable (session : Session)

def settings : Settings :=
  .ofEnvironment session.environment

def env? (name : String) : Option String :=
  session.environment.get? name

def setVariable (name : String) : Option String → Session
  | some value => { session with environment := session.environment.insert name value }
  | none => { session with environment := session.environment.erase name }

def changeDirectory (directory : String) : Session :=
  { session with
    directory
    environment :=
      (session.environment.insert "OLDPWD" session.directory).insert "PWD" directory }

def requestExit (code : Int) : Session :=
  { session with exitRequest := some code }

/-- Apply some aliases to a command line and find its command, recording a name that is missing. -/
def resolveWith (tree : FileTree) (aliases : AliasTable) (environment : Dictionary String)
    (directory : String) (arguments : List String) : Except ProcessError Resolution × Session :=
  let (result, cache) :=
    resolve session.cache tree aliases arguments (environment.get? "PATH") directory
  let remembering := { session with cache }
  match result with
  | .error (.notFound name) =>
    (result,
      if session.recordsMissing then
        { remembering with missing := name :: remembering.missing }
      else remembering)
  | _ => (result, remembering)

def resolveNow (tree : FileTree) (arguments : List String) :
    Except ProcessError Resolution × Session :=
  session.resolveWith tree session.aliases session.environment session.directory arguments

end Session

structure Frame where
  name : String
  locals : Dictionary Value

structure Shell where
  machine : Machine
  session : Session
  jobs : JobTable
  pipelines : Store Pipeline
  globals : Dictionary Value
  frames : List Frame
  lastReturncode : Int
  outputOverride : Option Nat
  inputOverride : Option Endpoint
  collected : Option (Nat × Nat)
  unit : Nat
  units : Nat

abbrev Action := StateT Shell Option

namespace Shell

def start (machine : Machine) (session : Session) : Shell :=
  { machine, session
    jobs := .empty
    pipelines := .empty
    globals := ∅
    frames := []
    lastReturncode := 0
    outputOverride := none
    inputOverride := none
    collected := none
    unit := 0
    units := 0 }

variable (shell : Shell)

def collecting : Shell :=
  let number := shell.machine.buffers.size
  { shell with
    machine := shell.machine.addBuffer true
    outputOverride := some number
    collected := some (number, 0) }

def lookUp? (name : String) : Option Value :=
  match shell.frames.head?.bind (·.locals.get? name) with
  | some value => some value
  | none => shell.globals.get? name

/-- Set a variable of the latest call, or of the whole program when there is none. -/
def setVariable (name : String) (value : Value) : Shell :=
  match shell.frames with
  | [] => { shell with globals := shell.globals.insert name value }
  | frame :: rest =>
    { shell with frames := { frame with locals := frame.locals.insert name value } :: rest }

def scope : Scope :=
  (Builtin.all.filter (!·.isCommandWord)).map Builtin.name ++ shell.globals.keys
    ++ (shell.frames.head?.map (·.locals.keys)).getD []

def callStack : List String :=
  shell.frames.reverse.map Frame.name

def complain (text : String) : Shell :=
  { shell with machine := shell.machine.complain (Utf8.encode (text ++ "\n")) }

def writeOutput (text : String) : Shell :=
  let bytes := Utf8.encode text
  { shell with
    machine :=
      match shell.outputOverride with
      | some number => shell.machine.writeTo bytes (.buffer number false false)
      | none => shell.machine.display bytes }

def pipeline? (number : Nat) : Option Pipeline :=
  shell.pipelines.get? number

end Shell

namespace Action

def session : Action Session :=
  return (← get).session

def modifySession (change : Session → Session) : Action Unit :=
  modify fun shell => { shell with session := change shell.session }

def modifyMachine (change : Machine → Machine) : Action Unit :=
  modify fun shell => { shell with machine := change shell.machine }

variable (number : Nat)

def withPipeline {α : Type} (wait : Machine → Pipeline → Option (Waited α)) :
    Action α := fun shell =>
  match shell.pipeline? number with
  | none => none
  | some pipeline =>
    match wait shell.machine pipeline with
    | none => none
    | some waited =>
      some (waited.result,
        { shell with
          machine := waited.machine
          pipelines := shell.pipelines.set number waited.pipeline })

def pollPipeline : Action Pipeline :=
  withPipeline number fun machine pipeline =>
    let (after, polled) := pipeline.poll machine
    some ⟨after, polled, polled⟩

def signalPipeline (act : Machine → Pipeline → Machine) : Action Unit :=
  withPipeline number fun machine pipeline => some ⟨act machine pipeline, pipeline, ()⟩

def resumePipeline : Action Unit :=
  withPipeline number fun machine pipeline =>
    let (after, resumed) := pipeline.resume machine
    some ⟨after, resumed, ()⟩

def resolveNow (arguments : List String) : Action (Except ProcessError Resolution) :=
  modifyGet fun shell =>
    let (result, session) := shell.session.resolveNow shell.machine.tree arguments
    (result, { shell with session })

end Action

end HybridShell
