import HybridShell.Prompt.Dialogue

/-!
# What the shell is started for

Help and the version come first, then a command, then a script; without any of
them the shell holds a dialogue.
-/

namespace HybridShell

structure Arguments where
  command : Option String
  script : Option String
  scriptArguments : List String
  noStartup : Bool
  help : Bool
  version : Bool
  deriving Repr, DecidableEq

inductive UsageError where
  | missingCommand
  | unknownOption (option : String)
  deriving Repr, DecidableEq

namespace UsageError

def message : UsageError → String
  | missingCommand => "-c requires an argument"
  | unknownOption option => "unknown option: " ++ option

end UsageError

namespace Arguments

def empty : Arguments :=
  ⟨none, none, [], false, false, false⟩

def readInto (known : Arguments) : List String → Except UsageError Arguments
  | [] => .ok known
  | first :: rest =>
    match first with
    | "-c" =>
      match rest with
      | command :: others =>
        .ok { known with command := some command, scriptArguments := others }
      | [] => .error .missingCommand
    | "--no-rc" => readInto { known with noStartup := true } rest
    | "--help" | "-h" => readInto { known with help := true } rest
    | "--version" | "-V" => readInto { known with version := true } rest
    | "--" =>
      match rest with
      | script :: others =>
        .ok { known with script := some script, scriptArguments := others }
      | [] => .ok known
    | word =>
      if word.startsWith "-" && word ≠ "-" then .error (.unknownOption word)
      else .ok { known with script := some word, scriptArguments := rest }

def read (words : List String) : Except UsageError Arguments :=
  readInto empty words

end Arguments

namespace Help

def version : String :=
  "duosh 0.1.0"

def lines : List String :=
  ["",
    "USAGE:",
    "    duosh                   Start interactive REPL",
    "    duosh -c <command>      Execute a single command",
    "    duosh <script> [args]   Execute a script file",
    "    duosh --no-rc           Skip ~/.duoshrc",
    "    duosh --help            Show this help message",
    "    duosh --version         Show version",
    "",
    "STARTUP:",
    "    ~/.duoshrc              Executed on REPL startup (if exists)",
    "    ~/.duosh_history        REPL history",
    "",
    "SUBPROCESS OPERATORS:",
    "    cmd args                Run a command (when `cmd` is not a bound name)",
    "    $[cmd]                  Stream to the terminal, value None",
    "    $(cmd)                  Capture stdout as a string",
    "    !(cmd)                  Capture a pipeline handle",
    "    ![cmd]                  Run, discard the value",
    "    @(expr)                 Splice a host value into a command",
    "    a | b, a && b, a || b   Pipes and short-circuit chains",
    "    > >> < 2> e> a> 2>&1    Redirections",
    "    cmd &                   Run in the background",
    "",
    "JOB CONTROL:",
    "    jobs [--json]           List jobs",
    "    fg [%N]                 Bring a job to the foreground",
    "    bg [%N]                 Continue a stopped job in the background",
    "    disown [%N]             Forget a job",
    "",
    "ENVIRONMENT:",
    "    DUOSH_RAISE_SUBPROC_ERROR   Raise on nonzero exit",
    "    DUOSH_THREAD_SUBPROCS       0 runs every command unthreaded",
    "    DUOSH_STORE_STDOUT          Keep output of uncaptured commands",
    "    DUOSH_POLL_INTERVAL_MS      Pipeline polling interval",
    "    DUOSH_GLOB_NO_MATCH         literal | drop",
    "    DUOSH_MAX_RECURSION         Host call depth limit (default 64)",
    "    DUOSH_LOG                   Log filter (e.g. debug, duosh=trace)"]

def text : String :=
  "\n".intercalate ((version ++ " - a scripting-language shell with subprocess pipelines") :: lines)

end Help

inductive Purpose where
  | help
  | version
  | command (text : String) (arguments : List String)
  | script (path : String) (arguments : List String)
  | dialogue (prepares : Bool)
  deriving Repr, DecidableEq

namespace Purpose

def ofArguments (arguments : Arguments) : Purpose :=
  if arguments.help then .help
  else if arguments.version then .version
  else
    match arguments.command, arguments.script with
    | some text, _ => .command text arguments.scriptArguments
    | none, some path => .script path arguments.scriptArguments
    | none, none => .dialogue !arguments.noStartup

def isInteractive : Purpose → Bool
  | dialogue _ => true
  | _ => false

def unreadable : Int := 127

def scriptBody (text : String) : String :=
  match text.toList with
  | '#' :: '!' :: rest => String.ofList ((rest.dropWhile (· ≠ '\n')).drop 1)
  | _ => text

variable (interpreter : Interpreter)

def runBatch (text : String) (arguments : List String) : Action Int := do
  modify (·.setVariable "args" (.list (arguments.map .str)))
  let code ← Shell.runProgram interpreter text
  JobControl.hangUpAll
  return code

def readScript (tree : FileTree) (path : String) : Except SystemError String :=
  match tree.readFile path with
  | .error error => .error error
  | .ok bytes =>
    match Utf8.decode? bytes with
    | some text => .ok (scriptBody text)
    | none => .error .notText

def perform : Purpose → Action Int
  | help => do
    modify (·.showLine Help.text)
    return 0
  | version => do
    modify (·.showLine Help.version)
    return 0
  | command text arguments => runBatch interpreter text arguments
  | script path arguments => do
    match readScript (← get).machine.tree path with
    | .ok text => runBatch interpreter text arguments
    | .error error =>
      modify (·.complain ("duosh: " ++ path ++ ": " ++ error.message))
      return unreadable
  | dialogue prepares => Dialogue.hold interpreter prepares

def exitStatus (code : Int) : Int :=
  shellExitCode code % 256

def run (machine : Machine) (directory : String) (environment : Dictionary String)
    (purpose : Purpose) : Option (Int × Machine) :=
  let shell := Shell.start machine (.start directory environment purpose.isInteractive)
  ((purpose.perform interpreter).run shell).map fun (code, after) =>
    (exitStatus code, after.machine.settle)

end Purpose

end HybridShell
