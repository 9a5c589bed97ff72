import HybridShell.Job.Control

/-!
# Commands of the shell

A command is done at once; what it writes is reported in order and then written
to its streams.
-/

namespace HybridShell

structure CommandReport where
  writes : List (Descriptor × String)
  result : CallResult

namespace CommandReport

def status (writes : List (Descriptor × String)) (code : Int64) : CommandReport :=
  ⟨writes, .value (.int code)⟩

def failure (writes : List (Descriptor × String)) (message : String) : CommandReport :=
  ⟨writes, .failed message⟩

def program (report : CommandReport) : Program CallResult :=
  report.writes.foldr
    (fun (sink, text) rest => Program.bind (.say sink text) fun _ => rest)
    (.done report.result)

end CommandReport

namespace ShellCommand

variable (call : Invocation)

/-- Change the directory: to the home directory, to the one before, or to a given one. -/
def changeDirectory : Action CommandReport := do
  let go (writes : List (Descriptor × String)) (target : String) : Action CommandReport := do
    let tree := (← get).machine.tree
    if !tree.isDirectory target then return .failure writes ("no such directory: " ++ target)
    match tree.canonical target with
    | .error error => return .failure writes error.message
    | .ok directory =>
      Action.modifySession (·.changeDirectory directory)
      return .status writes 0
  match call.arguments with
  | [] =>
    match call.environment.get? "HOME" with
    | none => return .failure [] "HOME not set"
    | some home => go [] home
  | "-" :: _ =>
    match call.environment.get? "OLDPWD" with
    | none => return .failure [] "OLDPWD not set"
    | some old => go [(.output, old ++ "\n")] old
  | directory :: _ => go [] (Path.join call.directory directory)

def requestExit : Action CommandReport := do
  let code? := match call.arguments with
    | [] => some 0
    | text :: _ => Reading.word32? text.toList
  match code? with
  | none => return .failure [] ("numeric argument required: " ++ call.arguments.headD "")
  | some code =>
    Action.modifySession (·.requestExit code.toInt)
    return .status [] code.toInt64

def listJobs : Action CommandReport := do
  let infos ← JobControl.list
  if call.arguments.contains "--json" then
    return .status [(.output, JobInfo.jsonDocument infos ++ "\n")] 0
  else return .status (infos.map fun info => (.output, info.line ++ "\n")) 0

def ofJob {α : Type} (code : α → Int64) : Except JobError α → CommandReport
  | .ok result => .status [] (code result)
  | .error (.process .interrupted) => ⟨[], .interrupted⟩
  | .error error => .failure [] error.message

def removeAliases : Action CommandReport := do
  let mut writes := []
  for name in call.arguments do
    if (← Action.session).aliases.contains name then
      Action.modifySession fun session => { session with aliases := session.aliases.erase name }
    else writes := writes ++ [(Descriptor.error, "unalias: " ++ name ++ ": not found\n")]
  return .status writes (if writes.isEmpty then 0 else 1)

def describeName (name : String) : Action ((Descriptor × String) × Bool) := do
  match (← Action.session).aliases.get? name with
  | some meaning =>
    return ((.output, name ++ ": aliased to " ++ meaning.describe ++ "\n"), true)
  | none =>
    match ← Action.resolveNow [name] with
    | .ok ⟨_, .external path, _⟩ => return ((.output, path ++ "\n"), true)
    | .ok _ => return ((.output, name ++ "\n"), true)
    | .error error => return ((.error, "which: " ++ error.message ++ "\n"), false)

def describeNames : Action CommandReport := do
  let described ← call.arguments.mapM describeName
  return .status (described.map Prod.fst) (if described.all Prod.snd then 0 else 1)

def perform (rounds : Nat) (call : Invocation) : ShellCommand → Action CommandReport
  | cd => changeDirectory call
  | exit => requestExit call
  | jobs => listJobs call
  | fg => return ofJob Int64.ofInt (← JobControl.foreground rounds call.arguments.head?)
  | bg => return ofJob (fun _ => 0) (← JobControl.background call.arguments.head?)
  | disown => return ofJob (fun _ => 0) (← JobControl.disown call.arguments.head?)
  | unalias => removeAliases call
  | rehash => do
    Action.modifySession fun session => { session with cache := session.cache.flush }
    return .status [] 0
  | which => describeNames call

end ShellCommand

end HybridShell
