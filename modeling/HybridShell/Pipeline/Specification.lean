import HybridShell.Expansion.Word
import HybridShell.Search.Resolution

/-!
# Stages before they start

Everything a stage is told about the session is taken from one snapshot, made
before its words are expanded.  Commands that take over the terminal are known by
their names and options.
-/

namespace HybridShell

namespace Threading

def unthreadable : List String :=
  ["cat", "clear", "cls", "cmd", "cryptop", "ed", "emacs", "emacsclient", "ex", "fzf", "htop",
    "mc", "mutt", "nano", "nvim", "percol", "pv", "psql", "rview", "rvim", "scp", "screen", "ssh",
    "startx", "tmux", "telnet", "top", "tput", "view", "vi", "vim", "xdg-open", "yes"]

/-- Interpreters that are interactive unless they are given something to run. -/
def interpreters : List String :=
  ["bash", "csh", "duosh", "elvish", "fish", "ipython", "julia", "ksh", "node", "python",
    "python2", "python3", "sh", "tcsh", "zsh"]

def helpOnly : List String :=
  ["gvim", "less", "man", "more", "mvim", "sudo", "vimpager", "xo"]

def helpOptions : List String :=
  ["-h", "--help", "-v", "-V", "--version"]

def commandName (path : String) : String :=
  let parts := ((path.splitOn "/").filter fun part => part ≠ "" ∧ part ≠ ".")
  match parts.getLast? with
  | some name => if name = ".." then path else name
  | none => path

def isEnvironmentArgument (argument : String) : Bool :=
  argument.startsWith "-" || argument.contains '='

def predict : List String → Bool
  | [] => true
  | first :: arguments =>
    let name := commandName first
    if name = "env" then predict (arguments.dropWhile isEnvironmentArgument)
    else if unthreadable.contains name then false
    else if interpreters.contains name then
      arguments.any fun argument => argument = "-c" ∨ ¬ argument.startsWith "-"
    else if helpOnly.contains name then arguments.any helpOptions.contains
    else true
termination_by words => words.length
decreasing_by
  have bound := (List.dropWhile_suffix isEnvironmentArgument (l := arguments)).length_le
  simp only [List.length_cons]
  omega

end Threading

inductive StreamTarget where
  | standard
  | file (number : Nat)
  | merged
  deriving Repr, DecidableEq

structure StageSpec where
  arguments : List String
  command : ResolvedCommand
  aliasName : Option String
  input : Option Nat
  output : StreamTarget
  error : StreamTarget
  capture : Capture
  directory : String
  environment : Dictionary String
  index : Nat
  background : Bool
  negated : Bool
  threadable : Bool

/-- The snapshot of a session from which the stages of one pipeline are built. -/
structure Blueprint where
  settings : Settings
  aliases : AliasTable
  environment : Dictionary String
  directory : String
  capture : Capture
  background : Bool
  negated : Bool

namespace StageSpec

def isThreadable (settings : Settings) (arguments : List String) : ResolvedCommand → Bool
  | .external _ => settings.threadCommands && Threading.predict arguments
  | .callable callable => callable.threadable && !callable.mainThread
  | .nested _ => false

def ofResolution (blueprint : Blueprint) (index : Nat) (resolution : Resolution)
    (input : Option Nat) (output error : StreamTarget) : StageSpec :=
  { arguments := resolution.arguments
    command := resolution.command
    aliasName := resolution.aliasName
    input, output, error
    capture := blueprint.capture
    directory := blueprint.directory
    environment := blueprint.environment
    index
    background := blueprint.background
    negated := blueprint.negated
    threadable := isThreadable blueprint.settings resolution.arguments resolution.command }

def name (spec : StageSpec) : String :=
  spec.arguments.headD ""

end StageSpec

end HybridShell
