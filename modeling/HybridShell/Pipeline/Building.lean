import HybridShell.Pipeline.Specification
import HybridShell.Session.Shell

/-!
# Building stages

The words of a command become arguments, its redirections are opened in order,
and then its command is found.
-/

namespace HybridShell

namespace Blueprint

def ofSession (session : Session) (capture : Capture) (background negated : Bool) : Blueprint :=
  { settings := session.settings
    aliases := session.aliases
    environment := session.environment
    directory := session.directory
    capture, background, negated }

variable (blueprint : Blueprint)

def expansion (tree : FileTree) : ExpansionContext :=
  ⟨tree, blueprint.directory, blueprint.environment, blueprint.settings.noMatch⟩

structure Redirections where
  input : Option Nat
  output : StreamTarget
  error : StreamTarget
  deriving Repr, DecidableEq

def Redirections.toFile (redirections : Redirections) (number : Nat) : Stream → Redirections
  | .stdin => { redirections with input := some number }
  | .stdout => { redirections with output := .file number }
  | .stderr => { redirections with error := .file number }
  | .all => { redirections with output := .file number, error := .file number }

def openTarget (mode : FileMode) (target : ExpandedWord) : ExceptT ProcessError Action Nat := do
  let machine := (← get).machine
  let name ← (blueprint.expansion machine.tree).targetName target
  match machine.openFile (Path.join blueprint.directory name) mode with
  | .error error => throw (.malformed (.cannotOpen name error))
  | .ok opened =>
    modify fun shell => { shell with machine := opened }
    return machine.files.size

def redirect (redirections : Redirections) :
    ExpandedRedirect → ExceptT ProcessError Action Redirections
  | .errToOut => return { redirections with error := .merged }
  | .outToErr => return { redirections with output := .merged }
  | .file stream mode target => do
    return redirections.toFile (← blueprint.openTarget mode target) stream

def buildStage (command : ExpandedCommand) (index : Nat) :
    ExceptT ProcessError Action StageSpec := do
  let context := blueprint.expansion (← get).machine.tree
  let arguments := (← command.words.mapM fun word => context.arguments word).flatten
  if arguments.isEmpty then throw (.malformed .emptyCommand)
  let redirections ←
    command.redirects.foldlM blueprint.redirect ⟨none, .standard, .standard⟩
  let shell ← get
  let (result, session) := shell.session.resolveWith shell.machine.tree blueprint.aliases
    blueprint.environment blueprint.directory arguments
  set { shell with session }
  let resolution ← result
  return .ofResolution blueprint index resolution redirections.input redirections.output
    redirections.error

def build (command : ExpandedCommand) (index : Nat) : Action (Except ProcessError StageSpec) :=
  (blueprint.buildStage command index).run

end Blueprint

end HybridShell
