import HybridShell.Evaluation.Statement

/-!
# The dialogue at the prompt

The prompt takes what is typed in large pieces and hands it out line by line,
until a unit is complete; what it took is out of reach for the commands that it
starts.  While there are unfinished jobs the dialogue has to be told twice to
end.
-/

namespace HybridShell

/-- What was typed: taken by the prompt and not yet used, and not yet taken. -/
structure TypedInput where
  taken : Bytes
  waiting : Bytes
  deriving Repr, DecidableEq

namespace TypedInput

def pieceSize : Nat := 8192

def withoutEnd (line : Bytes) : Bytes :=
  if line.getLast? = some 13 then line.dropLast else line

/-- The next line and what is left; nothing at the end of the input. -/
def nextLine? (input : TypedInput) : Option (Bytes × TypedInput) :=
  if input.taken.contains 10 then
    let line := input.taken.takeWhile (· ≠ 10)
    some (withoutEnd line, { input with taken := input.taken.drop (line.length + 1) })
  else if _empty : input.waiting.isEmpty then
    if input.taken.isEmpty then none else some (input.taken, { input with taken := [] })
  else
    nextLine? ⟨input.taken ++ input.waiting.take pieceSize, input.waiting.drop pieceSize⟩
termination_by input.waiting.length
decreasing_by
  have positive : 0 < input.waiting.length := by
    cases waiting : input.waiting with
    | nil => simp [waiting] at _empty
    | cons => simp
  simp only [List.length_drop, pieceSize]
  omega

end TypedInput

namespace Shell

def showLine (shell : Shell) (text : String) : Shell :=
  { shell with machine := shell.machine.display (Utf8.encode (text ++ "\n")) }

def report (shell : Shell) (error : EvalError) : Shell :=
  shell.complain ("duosh: " ++ error.message)

def isIdle (text : String) : Bool :=
  text.toList.all Text.isBlank

/-- Evaluate a unit and give its status; nothing is no unit.  Values are shown on request. -/
def execute (interpreter : Interpreter) (shows : Bool) (text : String) : Run Int := do
  if isIdle text then return (← get).lastReturncode
  let result ← evaluate interpreter text
  if shows && !result.value.isNone then modify (·.showLine result.value.repr)
  return result.code

/-- Run a whole program: an early end is complained about unless it was asked for. -/
def runProgram (interpreter : Interpreter) (text : String) : Action Int := do
  match ← (execute interpreter false text).run with
  | .ok code => return code
  | .error (.exit code) => return code
  | .error error =>
    modify (·.report error)
    return error.exitCode

end Shell

structure Dialogue where
  home : Option String
  taken : Bytes
  unfinished : String
  warned : Bool

namespace Dialogue

def continuationPrompt : String := "... "

variable (interpreter : Interpreter) (home : Option String) (dialogue : Dialogue)

def shownDirectory (directory : String) : String :=
  match home with
  | none => directory
  | some "" => "~/" ++ directory
  | some path =>
    match Path.stripDirectory? directory path with
    | none => directory
    | some "" => "~"
    | some rest => "~/" ++ rest

/-- The prompt for a new unit: the directory, and the last status unless it is zero. -/
def prompt (directory : String) (status : Int) : String :=
  let shown := shownDirectory home directory ++ " $ "
  if status = 0 then shown else "[" ++ toString status ++ "] " ++ shown

def isComplete (text : String) : Bool :=
  match parseUnit text with
  | .ok _ => true
  | .error error => !error.isIncomplete

def start : Dialogue :=
  { home, taken := [], unfinished := "", warned := false }

def complainJobs (infos : List JobInfo) : Action Unit :=
  infos.forM fun info => modify (·.complain info.line)

def mayLeave : Action (Bool × Dialogue) := do
  let unfinished ← JobControl.unfinished
  if unfinished.isEmpty || dialogue.warned then return (true, dialogue)
  modify (·.complain "duosh: there are unfinished jobs")
  complainJobs unfinished
  modify (·.complain "duosh: exit again to terminate them")
  return (false, { dialogue with warned := true })

inductive Next where
  | onward (dialogue : Dialogue)
  | leave (code : Int)

def tryLeaving (code : Int) : Action Next := do
  let (allowed, after) ← dialogue.mayLeave
  return if allowed then .leave code else .onward after

def ask : Action (Option Bytes × Dialogue) := do
  if dialogue.unfinished.isEmpty then complainJobs (← JobControl.reap)
  let shell ← get
  let question :=
    if dialogue.unfinished.isEmpty then
      prompt dialogue.home shell.session.directory shell.lastReturncode
    else continuationPrompt
  let machine := shell.machine.display (Utf8.encode question)
  match TypedInput.nextLine? ⟨dialogue.taken, machine.typed⟩ with
  | none =>
    set { shell with machine }
    return (none, dialogue)
  | some (line, rest) =>
    set { shell with machine := { machine with typed := rest.waiting } }
    return (some line, { dialogue with taken := rest.taken })

def respond (text : String) : Action Next := do
  Action.modifyMachine (·.setFlag Machine.sessionFlag false)
  let calmed := if Shell.isIdle text then dialogue else { dialogue with warned := false }
  match ← (Shell.execute interpreter true text).run with
  | .ok _ => return .onward calmed
  | .error (.exit code) => dialogue.tryLeaving code
  | .error error =>
    if error.isInterrupt then modify (·.complain "^C") else modify (·.report error)
    return .onward calmed

def advance : Option Bytes → Action Next
  | none => do
    if dialogue.unfinished.isEmpty then dialogue.tryLeaving (← get).lastReturncode
    else return .onward { dialogue with unfinished := "" }
  | some bytes =>
    match Utf8.decode? bytes with
    | none => do
      modify (·.complain ("duosh: " ++ SystemError.notText.message))
      return .leave 1
    | some line =>
      let text :=
        if dialogue.unfinished.isEmpty then line else dialogue.unfinished ++ "\n" ++ line
      if isComplete text then respond interpreter { dialogue with unfinished := "" } text
      else return .onward { dialogue with unfinished := text }

def converse (interpreter : Interpreter) : Nat → Dialogue → Action Int
  | 0, _ => failure
  | lines + 1, dialogue => do
    let (line, asked) ← dialogue.ask
    match ← asked.advance interpreter line with
    | .onward next => converse interpreter lines next
    | .leave code => return code

/-- A number of lines that is enough: every byte may be one, and the end is met thrice. -/
def enoughLines (shell : Shell) : Nat :=
  shell.machine.typed.length + 4

def prepare : Action (Option Int) := do
  let tree := (← get).machine.tree
  let text? := home.bind fun path =>
    match tree.readFile (Path.join path ".duoshrc") with
    | .ok bytes => Utf8.decode? bytes
    | .error _ => none
  match text? with
  | none => return none
  | some text =>
    match ← (Shell.execute interpreter false text).run with
    | .ok _ => return none
    | .error (.exit code) => return some code
    | .error error =>
      modify (·.complain ("~/.duoshrc: duosh: " ++ error.message))
      return none

def hold (prepares : Bool) : Action Int := do
  let home := (← get).session.env? "HOME"
  let early ← if prepares then prepare interpreter home else pure none
  match early with
  | some code => return code
  | none =>
    let code ← converse interpreter (enoughLines (← get)) (start home)
    JobControl.hangUpAll
    return code

end Dialogue

end HybridShell
