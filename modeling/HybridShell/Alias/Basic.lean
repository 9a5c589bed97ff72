import HybridShell.Dictionary
import HybridShell.Expression.Nested
import HybridShell.Machine.Program
import HybridShell.Value.Rendering

/-!
# Aliases

A command name may stand for words that replace it, for something the shell
does itself, or for code that the interpreter runs.
-/

namespace HybridShell

inductive ShellCommand where
  | cd
  | exit
  | jobs
  | fg
  | bg
  | disown
  | unalias
  | rehash
  | which
  deriving Repr, DecidableEq

/-- What a callable is told about its call. -/
structure Invocation where
  name : String
  arguments : List String
  directory : String
  environment : Dictionary String
  stack : Option (List String)

inductive CallResult where
  | value (value : Value)
  | failed (message : String)
  | interrupted
  | broken

inductive CallableAction where
  | command (command : ShellCommand)
  | program (run : Invocation → Program CallResult)

structure CallableAlias where
  name : String
  action : CallableAction
  threadable : Bool
  mainThread : Bool
  wantsStack : Bool

/-- Code that the interpreter runs when a command is called. -/
inductive NestedAlias where
  | source (text : String)
  | function (function : Function)

/-- What a command name stands for. -/
inductive Alias where
  | template (words : List String)
  | callable (callable : CallableAlias)
  | nested (code : NestedAlias)

abbrev AliasTable := Dictionary Alias

namespace Alias

def ofProgram (name : String) (run : Invocation → Program CallResult) : Alias :=
  callable ⟨name, .program run, true, false, false⟩

def ofCommand (name : String) (command : ShellCommand) : Alias :=
  callable ⟨name, .command command, true, false, false⟩

def unthreadable : Alias → Alias
  | callable entry => callable { entry with threadable := false }
  | other => other

def onMainThread : Alias → Alias
  | callable entry => callable { entry with mainThread := true, threadable := false }
  | other => other

def withStack : Alias → Alias
  | callable entry => callable { entry with wantsStack := true }
  | other => other

def sourceMarkers : List String :=
  ["@(", "$(", "!(", "$[", "![", "&&", "||", " and ", " or ", "|", ">", "<", ";", "\n"]

def isSource (text : String) : Bool :=
  sourceMarkers.any fun marker => Text.occursIn marker.toList text.toList

/-- The alias of a text: plain words replace the name, anything else runs as code. -/
def ofText (text : String) : Except ParseError Alias :=
  if isSource text then .ok (nested (.source text))
  else
    match splitWords text with
    | .error error => .error error
    | .ok [] => .error (.malformed 1 .emptyAlias)
    | .ok words => .ok (template words)

def describe : Alias → String
  | template words => " ".intercalate words
  | callable entry => "<callable " ++ entry.name ++ ">"
  | nested (.source text) => "<source " ++ Text.quoted text ++ ">"
  | nested (.function defined) => "<function " ++ defined.name ++ ">"

end Alias

end HybridShell
