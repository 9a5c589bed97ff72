import HybridShell.Dictionary
import HybridShell.Number.Reading
import HybridShell.Text.Search

/-!
# Settings

Settings are read each time they are needed, so that a change takes effect with
the next pipeline.
-/

namespace HybridShell

inductive NoMatchPolicy where
  | literal
  | drop
  deriving Repr, DecidableEq

structure Settings where
  raiseOnFailure : Bool
  threadCommands : Bool
  storeOutput : Bool
  pollInterval : Nat
  noMatch : NoMatchPolicy
  maxRecursion : Nat
  deriving Repr, DecidableEq

namespace Settings

def default : Settings :=
  { raiseOnFailure := false
    threadCommands := true
    storeOutput := false
    pollInterval := 10
    noMatch := .literal
    maxRecursion := 64 }

def names : List String :=
  ["DUOSH_RAISE_SUBPROC_ERROR", "DUOSH_THREAD_SUBPROCS", "DUOSH_STORE_STDOUT",
    "DUOSH_POLL_INTERVAL_MS", "DUOSH_GLOB_NO_MATCH", "DUOSH_MAX_RECURSION"]

variable (text : String) (environment : Dictionary String)

def trimmed : List Char :=
  Text.trim text.toList

def switch? : Option Bool :=
  match String.ofList ((trimmed text).map Char.toLower) with
  | "1" | "true" | "yes" | "on" => some true
  | "0" | "false" | "no" | "off" | "" => some false
  | _ => none

def switch (key : String) (fallback : Bool) : Bool :=
  ((environment.get? key).bind switch?).getD fallback

def positive? : Option Nat :=
  let digits := match trimmed text with
    | '+' :: rest => rest
    | other => other
  (Reading.natural? digits).filter fun value => 0 < value && value < Nat.pow 2 64

def positive (key : String) (fallback : Nat) : Nat :=
  ((environment.get? key).bind positive?).getD fallback

def policy : NoMatchPolicy :=
  if String.ofList ((trimmed text).map Char.toLower) = "drop" then .drop else .literal

def ofEnvironment : Settings :=
  { raiseOnFailure :=
      switch environment "DUOSH_RAISE_SUBPROC_ERROR" default.raiseOnFailure
    threadCommands := switch environment "DUOSH_THREAD_SUBPROCS" default.threadCommands
    storeOutput := switch environment "DUOSH_STORE_STDOUT" default.storeOutput
    pollInterval := positive environment "DUOSH_POLL_INTERVAL_MS" default.pollInterval
    noMatch := ((environment.get? "DUOSH_GLOB_NO_MATCH").map policy).getD default.noMatch
    maxRecursion := positive environment "DUOSH_MAX_RECURSION" default.maxRecursion }

end Settings

end HybridShell
