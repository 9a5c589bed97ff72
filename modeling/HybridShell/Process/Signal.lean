/-!
# Signals

A stage ends by itself with a code, or by a signal.  One number stands for
both: the code, or the negated number of the signal.
-/

namespace HybridShell

namespace Signal

def interrupt : Int := 2
def kill : Int := 9
def brokenPipe : Int := 13
def terminate : Int := 15
def resume : Int := 18
def stop : Int := 19
def keyboardStop : Int := 20

def names : List String :=
  ["HUP", "INT", "QUIT", "ILL", "TRAP", "ABRT", "BUS", "FPE", "KILL", "USR1", "SEGV", "USR2",
    "PIPE", "ALRM", "TERM", "STKFLT", "CHLD", "CONT", "STOP", "TSTP", "TTIN", "TTOU", "URG",
    "XCPU", "XFSZ", "VTALRM", "PROF", "WINCH", "IO", "PWR", "SYS"]

variable (number : Int)

def shortName? : Option String :=
  if 1 ≤ number then names[(number - 1).toNat]? else none

/-- The name of a signal; one outside the standard set is named by its number. -/
def name : String :=
  "SIG" ++ (shortName? number).getD (toString number)

def ofShortName? (text : String) : Option Int :=
  (names.idxOf? text).map fun index => (index : Int) + 1

/-- How the death by a signal is described, and none for those that pass in silence. -/
def description? : Option String :=
  match number with
  | 2 | 13 => none
  | 6 => some "Aborted"
  | 7 => some "Bus error"
  | 8 => some "Floating point exception"
  | 1 => some "Hangup"
  | 4 => some "Illegal instruction"
  | 9 => some "Killed"
  | 3 => some "Quit"
  | 11 => some "Segmentation fault"
  | 19 | 20 => some "Stopped"
  | 15 => some "Terminated"
  | 5 => some "Trace/breakpoint trap"
  | other => some ("Killed by " ++ name other)

def deathMessage? (core : Bool) : Option String :=
  (description? number).map fun text => if core then text ++ " (core dumped)" else text

/-- How a script announces that a command died of a signal, unless it passes in silence. -/
def announcement? : Option String :=
  match number with
  | 2 | 13 => none
  | 10 => some "User defined signal 1"
  | 12 => some "User defined signal 2"
  | 14 => some "Alarm clock"
  | 16 => some "Stack fault"
  | 24 => some "CPU time limit exceeded"
  | 25 => some "File size limit exceeded"
  | 26 => some "Virtual timer expired"
  | 27 => some "Profiling timer expired"
  | 29 => some "I/O possible"
  | 30 => some "Power failure"
  | 31 => some "Bad system call"
  | other => description? other

/-- What a signal does to a process that has not asked otherwise. -/
inductive Effect where
  | ends
  | stops
  | continues
  | nothing
  deriving Repr, DecidableEq

def effect : Effect :=
  match number with
  | 18 => .continues
  | 19 | 20 | 21 | 22 => .stops
  | 17 | 23 | 28 => .nothing
  | _ => .ends

end Signal

inductive Outcome where
  | exited (code : Int)
  | signaled (signal : Int) (core : Bool)
  deriving Repr, DecidableEq

namespace Outcome

def returncode : Outcome → Int
  | exited code => code
  | signaled signal _ => -signal

def isSignaled : Outcome → Bool
  | exited _ => false
  | signaled _ _ => true

def isInterrupted : Outcome → Bool
  | exited _ => false
  | signaled signal _ => signal == Signal.interrupt

def signal? : Outcome → Option (String × Bool)
  | exited _ => none
  | signaled signal core => some (Signal.name signal, core)

end Outcome

/-- What a signed word of 32 bits keeps of a number. -/
def wrapped (number : Int) : Int :=
  number.bmod (Nat.pow 2 32)

/-- The status that a shell reports for a return code: `128 + n` for a death by signal `n`. -/
def shellExitCode (returncode : Int) : Int :=
  if returncode < 0 then wrapped (128 - returncode) else returncode

end HybridShell
