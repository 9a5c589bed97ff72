import HybridShell.Grammar.Tree
import HybridShell.Process.Failure
import HybridShell.Text.Utf8

/-!
# Programs

A program is what it asks of the machine it runs on, in order, and how it
goes on with each answer.
-/

namespace HybridShell

inductive Utility where
  | sh
  | echo
  | printf
  | cat
  | sort
  | tr
  | wc
  | head
  | tail
  | true
  | false
  | sleep
  | grep
  | ls
  | pwd
  deriving Repr, DecidableEq

namespace Utility

def all : List Utility :=
  [sh, echo, printf, cat, sort, tr, wc, head, tail, true, false, sleep, grep, ls, pwd]

def name : Utility → String
  | sh => "sh"
  | echo => "echo"
  | printf => "printf"
  | cat => "cat"
  | sort => "sort"
  | tr => "tr"
  | wc => "wc"
  | head => "head"
  | tail => "tail"
  | true => "true"
  | false => "false"
  | sleep => "sleep"
  | grep => "grep"
  | ls => "ls"
  | pwd => "pwd"

end Utility

structure Executable where
  utility : Utility
  /-- For a script, the words that stand in place of the name it was called by. -/
  front : List String
  deriving Repr, DecidableEq

namespace Executable

def commandLine (executable : Executable) (words : List String) : List String :=
  if executable.front.isEmpty then words else executable.front ++ words.tail

end Executable

/-- The number by which a program knows an open stream. -/
abbrev Descriptor := Nat

namespace Descriptor

def input : Descriptor := 0
def output : Descriptor := 1
def error : Descriptor := 2

end Descriptor

inductive EntryKind where
  | file (executable : Bool)
  | directory
  deriving Repr, DecidableEq

/-- How much of what is there a reader takes. -/
inductive Portion where
  | everything
  | line
  | bytes (count : Nat)
  deriving Repr, DecidableEq

namespace Portion

def size (available : Bytes) : Portion → Nat
  | everything => available.length
  | line => (available.takeWhile (· ≠ 10)).length + 1
  | bytes count => count

end Portion

inductive Program (α : Type) where
  | done (result : α)
  | halt (outcome : Outcome)
  /-- Take a portion of what can be read now; nothing means the end. -/
  | read (source : Descriptor) (portion : Portion) (next : Option Bytes → Program α)
  | write (sink : Descriptor) (bytes : Bytes) (next : Unit → Program α)
  | openFile (path : String) (mode : FileMode)
      (next : Except SystemError Descriptor → Program α)
  /-- Make a pipe; its reading end comes first. -/
  | makePipe (next : Descriptor → Descriptor → Program α)
  | close (descriptor : Descriptor) (next : Unit → Program α)
  /-- Take some streams as the standard ones, in order, and give up all others. -/
  | adopt (streams : List Descriptor) (next : Unit → Program α)
  | inspect (path : String) (next : Option EntryKind → Program α)
  | inspectStream (source : Descriptor) (next : Option EntryKind → Program α)
  /-- Whether a stream is read from a file in which another one writes further on. -/
  | wouldMeet (source sink : Descriptor) (next : Bool → Program α)
  | listNames (path : String) (next : Except SystemError (List String) → Program α)
  | load (directory path : String) (next : Except SystemError Executable → Program α)
  /-- Go on twice, in a new process and in this one, with the number of the new process. -/
  | fork (next : Bool → Int → Program α)
  | await (process : Int) (next : Outcome → Program α)
  /-- Send a signal to a process; tells whether there is one. -/
  | sendSignal (process signal : Int) (next : Bool → Program α)
  /-- From now on, take some signals as messages and let others pass without effect. -/
  | catchSignals (caught ignored : List Int) (next : Unit → Program α)
  | takeSignals (next : List Int → Program α)
  | sleep (milliseconds : Nat) (next : Unit → Program α)
  | stop (next : Unit → Program α)
  | checkInterrupt (next : Bool → Program α)
  | awaitInterrupt (next : Unit → Program α)
  | raiseInterrupt (next : Unit → Program α)

namespace Program

variable {α β : Type}

def bind : Program α → (α → Program β) → Program β
  | done result, f => f result
  | halt outcome, _ => .halt outcome
  | read source portion next, f => .read source portion fun answer => (next answer).bind f
  | write sink bytes next, f => .write sink bytes fun answer => (next answer).bind f
  | openFile path mode next, f => .openFile path mode fun answer => (next answer).bind f
  | makePipe next, f => .makePipe fun reader writer => (next reader writer).bind f
  | close descriptor next, f => .close descriptor fun answer => (next answer).bind f
  | adopt streams next, f => .adopt streams fun answer => (next answer).bind f
  | inspect path next, f => .inspect path fun answer => (next answer).bind f
  | inspectStream source next, f => .inspectStream source fun answer => (next answer).bind f
  | wouldMeet source sink next, f => .wouldMeet source sink fun answer => (next answer).bind f
  | listNames path next, f => .listNames path fun answer => (next answer).bind f
  | load directory path next, f => .load directory path fun answer => (next answer).bind f
  | fork next, f => .fork fun isNew process => (next isNew process).bind f
  | await process next, f => .await process fun answer => (next answer).bind f
  | sendSignal process signal next, f =>
    .sendSignal process signal fun answer => (next answer).bind f
  | catchSignals caught ignored next, f =>
    .catchSignals caught ignored fun answer => (next answer).bind f
  | takeSignals next, f => .takeSignals fun answer => (next answer).bind f
  | sleep milliseconds next, f => .sleep milliseconds fun answer => (next answer).bind f
  | stop next, f => .stop fun answer => (next answer).bind f
  | checkInterrupt next, f => .checkInterrupt fun answer => (next answer).bind f
  | awaitInterrupt next, f => .awaitInterrupt fun answer => (next answer).bind f
  | raiseInterrupt next, f => .raiseInterrupt fun answer => (next answer).bind f

instance : Monad Program where
  pure := done
  bind := bind

def say (sink : Descriptor) (text : String) : Program Unit :=
  if text.isEmpty then done () else write sink (Utf8.encode text) done

end Program

end HybridShell
