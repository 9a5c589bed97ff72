import HybridShell.Programs.Format
import HybridShell.Programs.Script.Condition
import HybridShell.Programs.Script.State
import HybridShell.Programs.Writing

/-!
# Commands of scripts

Some commands are carried out by the script itself, because they change its
state or decide how it goes on.
-/

namespace HybridShell

inductive Flow where
  | onward
  | ended (outcome : Outcome)
  | failed
  | returned
  | broke (levels : Nat)
  | skipped (levels : Nat)
  deriving Repr, DecidableEq

abbrev ScriptStep := ScriptState × Flow

namespace ScriptState

variable (state : ScriptState)

def answer (status : Int) : Program ScriptStep :=
  .done ({ state with status }, .onward)

def refuse (problem : String) (status : Int) : Program ScriptStep := do
  state.complain problem
  state.answer status

def giveUp (problem : String) : Program ScriptStep := do
  state.complain problem
  .done ({ state with status := 2 }, .failed)

def statusOf : Outcome → Int
  | .exited code => code
  | .signaled signal _ => 128 + signal

def present (bytes : Bytes) (status : Int) : Program ScriptStep :=
  .write state.output bytes fun _ => state.answer status

def presentLine (text : String) (status : Int) : Program ScriptStep :=
  state.present (Utf8.encode (text ++ "\n")) status

def moveTo (target path : String) (shown : Bool) : Program ScriptStep :=
  .inspect path fun
    | some .directory =>
      let directory := Path.render (Path.resolved (Path.names path))
      let moved :=
        ({ state with directory }.assign "OLDPWD" state.directory).assign "PWD" directory
      if shown then moved.presentLine directory 0 else moved.answer 0
    | _ => state.refuse ("can't cd to " ++ target) 2

def changeDirectory (arguments : List String) : Program ScriptStep :=
  match arguments.filter fun argument => !(["-L", "-P", "--"].contains argument) with
  | [] => state.moveTo "" (Path.join state.directory (state.lookUp "HOME")) false
  | "-" :: _ => state.moveTo "-" (Path.join state.directory (state.lookUp "OLDPWD")) true
  | target :: _ => state.moveTo target (Path.join state.directory target) false

/-- A character of a line, and whether it was kept by a backslash. -/
abbrev LineCharacter := Char × Bool

/-- The characters of a line, in which a backslash keeps the next one unless it is raw. -/
def lineCharacters (raw : Bool) : List Char → List LineCharacter
  | [] => []
  | '\\' :: rest =>
    if raw then ('\\', false) :: lineCharacters raw rest
    else
      match rest with
      | kept :: others => (kept, true) :: lineCharacters raw others
      | [] => []
  | character :: rest => (character, false) :: lineCharacters raw rest

def divides (separators : List Char) (item : LineCharacter) : Bool :=
  !item.2 && separators.contains item.1

def dividesAsBlank (separators : List Char) (item : LineCharacter) : Bool :=
  divides separators item && [' ', '\t', '\n'].contains item.1

/-- Divide a line among variables; the last one takes the rest. -/
def assignLine (separators : List Char) (state : ScriptState) :
    List String → List LineCharacter → ScriptState
  | [], _ => state
  | [name], line =>
    let front := line.dropWhile (dividesAsBlank separators)
    let whole := (front.reverse.dropWhile (dividesAsBlank separators)).reverse
    let first := whole.takeWhile (!divides separators ·)
    let kept :=
      if whole.length = first.length + 1 then first else whole
    state.assign name (String.ofList (kept.map Prod.fst))
  | name :: rest, line =>
    let front := line.dropWhile (dividesAsBlank separators)
    let first := front.takeWhile (!divides separators ·)
    let after := (front.drop first.length).dropWhile (dividesAsBlank separators)
    let others := match after with
      | item :: left => if divides separators item then left else after
      | [] => []
    assignLine separators (state.assign name (String.ofList (first.map Prod.fst))) rest others

/-- Read a line, going on after a line end that a backslash keeps, for some lines at most. -/
def readLogicalLine (source : Descriptor) (raw : Bool) : Nat → Program (Bytes × Bool)
  | 0 => .done ([], false)
  | lines + 1 =>
    .read source .line fun
      | none => .done ([], false)
      | some bytes =>
        if bytes.getLast? ≠ some 10 then do
          let (others, ended) ← readLogicalLine source raw lines
          .done (bytes ++ others, ended)
        else
          let line := bytes.dropLast
          let backslashes := (line.reverse.takeWhile (· = 92)).length
          if !raw && backslashes % 2 = 1 then do
            let (others, ended) ← readLogicalLine source raw lines
            .done (line.dropLast ++ others, ended)
          else .done (line, true)

def readVariables (arguments : List String) : Program ScriptStep := do
  let raw := arguments.contains "-r"
  let names := match arguments.filter (· ≠ "-r") with
    | "-p" :: _ :: rest => rest
    | other => other
  let (bytes, ended) ←
    readLogicalLine (state.stream Descriptor.input) raw Program.manyReads
  let characters := lineCharacters raw (Utf8.decode bytes).toList
  (state.assignLine state.separators names characters).answer (if ended then 0 else 1)

def signalNamed? (text : String) : Option Int :=
  match Reading.natural? text.toList with
  | some number => some number
  | none =>
    let upper := text.toUpper
    let short := if upper.startsWith "SIG" then (upper.drop 3).toString else upper
    if short = "EXIT" then some 0 else Signal.ofShortName? short

/-- The signal and the processes that `kill` is given, or what is wrong with them. -/
def killRequest : List String → Except String (Int × List String)
  | "-s" :: name :: targets =>
    match signalNamed? name with
    | some signal => .ok (signal, targets)
    | none => .error ("invalid signal number or name: " ++ name)
  | "--" :: targets => .ok (Signal.terminate, targets)
  | first :: targets =>
    match first.toList with
    | '-' :: letter :: letters =>
      match signalNamed? (String.ofList (letter :: letters)) with
      | some signal => .ok (signal, targets)
      | none => .error ("Illegal option -" ++ String.singleton letter)
    | _ => .ok (Signal.terminate, first :: targets)
  | [] => .ok (Signal.terminate, [])

def sendTo (state : ScriptState) (signal status : Int) :
    List String → Program ScriptStep
  | [] => state.answer status
  | target :: rest =>
    match Reading.integer? target.toList with
    | none => state.refuse ("Illegal number: " ++ target) 2
    | some number =>
      let process := if number = 0 then state.ownProcess else (number.natAbs : Int)
      .sendSignal process signal fun
        | true => state.sendTo signal status rest
        | false => do
          state.complain "No such process\n"
          state.sendTo signal 1 rest

def sendSignals (arguments : List String) : Program ScriptStep :=
  match arguments, killRequest arguments with
  | "-l" :: number :: _, _ =>
    match (Reading.natural? number.toList).bind fun code =>
        Signal.shortName? (if code > 128 then code - 128 else code) with
    | some name => state.presentLine name 0
    | none => state.refuse ("Illegal number: " ++ number) 2
  | _, .error problem => state.refuse problem 2
  | _, .ok (_, []) =>
    state.refuse ("Usage: kill [-s sigspec | -signum | -sigspec] [pid | job]... or\n"
      ++ "kill -l [exitstatus]") 2
  | _, .ok (signal, targets) => state.sendTo signal 0 targets

def leave (command : String) (arguments : List String) (flow : Int → Flow) : Program ScriptStep :=
  match arguments with
  | [] => .done (state, flow state.status)
  | text :: _ =>
    match Reading.natural? text.toList with
    | some code =>
      let status : Int := if command = "exit" then code % 256 else code
      .done ({ state with status }, flow status)
    | none => state.giveUp ("Illegal number: " ++ text)

def declareAll (state : ScriptState) (declare : ScriptState → String → ScriptState) :
    List String → Program ScriptStep
  | [] => state.answer 0
  | binding :: rest =>
    match binding.splitOn "=" with
    | [] => state.declareAll declare rest
    | [name] => (declare state name).declareAll declare rest
    | name :: value =>
      if state.fixed.contains name then state.giveUp (name ++ ": is read only")
      else ((declare state name).assign name ("=".intercalate value)).declareAll declare rest

def hide (name : String) : ScriptState :=
  match state.hidden with
  | [] => state
  | values :: rest =>
    if values.any (·.1 = name) then state
    else { state with hidden := ((name, state.bindings.get? name) :: values) :: rest }

def unhide : ScriptState :=
  match state.hidden with
  | [] => state
  | values :: rest =>
    values.foldl (fun current (name, value) => current.restore name value)
      { state with hidden := rest }

def judge (words : List String) : Program ScriptStep := do
  match ← Condition.evaluate state.place (words.length + 1) words with
  | .ok true => state.answer 0
  | .ok false => state.answer 1
  | .error problem => state.refuse problem 2

def countIn (arguments : List String) : Nat :=
  (arguments.head?.bind fun text => Reading.natural? text.toList).getD 1

def leaveLoops (arguments : List String) (flow : Nat → Flow) : Program ScriptStep :=
  if state.loops = 0 then state.answer 0
  else .done ({ state with status := 0 }, flow (min (max 1 (countIn arguments)) state.loops))

def longOption : String → List Char
  | "errexit" => ['e']
  | "nounset" => ['u']
  | "xtrace" => ['x']
  | "noglob" => ['f']
  | _ => []

def switch (letters : List Char) (value : Bool) : ScriptState :=
  { state with options := state.options.setAll letters value }

def setOptions (state : ScriptState) : List String → ScriptState
  | [] => state
  | "--" :: arguments => { state with arguments }
  | "-o" :: name :: rest => setOptions (state.switch (longOption name) true) rest
  | "+o" :: name :: rest => setOptions (state.switch (longOption name) false) rest
  | first :: rest =>
    match first.toList with
    | '-' :: letter :: letters => setOptions (state.switch (letter :: letters) true) rest
    | '+' :: letter :: letters => setOptions (state.switch (letter :: letters) false) rest
    | _ => { state with arguments := first :: rest }

def setTraps (action : Option String) (signals : List Int) : ScriptState :=
  let others := state.traps.filter fun (signal, _) => !signals.contains signal
  { state with
    traps := others ++ (action.map fun text => signals.map (·, text)).getD [] }

/-- Tell the machine which signals the script takes as messages and which it ignores. -/
def announceTraps : Program ScriptStep :=
  let signals := state.traps.filter (·.1 ≠ 0)
  .catchSignals ((signals.filter (!·.2.isEmpty)).map Prod.fst)
    ((signals.filter (·.2.isEmpty)).map Prod.fst) fun _ => state.answer 0

def singleQuoted (text : String) : String :=
  "'" ++ "'\"'\"'".intercalate (text.splitOn "'") ++ "'"

def trapLines : String :=
  let ordered := state.traps.mergeSort fun left right => left.1 ≤ right.1
  String.join (ordered.map fun (signal, action) =>
    "trap -- " ++ singleQuoted action ++ " "
      ++ (if signal = 0 then "EXIT" else (Signal.shortName? signal).getD (toString signal)) ++ "\n")

def changeTraps (arguments : List String) : Program ScriptStep :=
  let (action, names) : Option String × List String :=
    match arguments.dropWhile (· = "--") with
    | [] => (none, [])
    | "-" :: rest => (none, rest)
    | [single] => (none, [single])
    | first :: rest =>
      if (Reading.natural? first.toList).isSome then (none, first :: rest) else (some first, rest)
  match names.find? fun name => (signalNamed? name).isNone with
  | some name => do
    .say state.error ("trap: " ++ name ++ ": bad trap\n")
    state.answer 1
  | none => (state.setTraps action (names.filterMap signalNamed?)).announceTraps

def announce : Outcome → Program Unit
  | .exited _ => .done ()
  | .signaled signal _ =>
    match Signal.announcement? signal with
    | some text => .say state.error (text ++ "\n")
    | none => .done ()

/-- Wait for processes that run beside the script, and take the status of the last one. -/
def awaitJobs (state : ScriptState) (status : Int) : List Int → Program ScriptStep
  | [] => state.answer status
  | process :: rest =>
    if state.jobs.contains process then
      .await process fun outcome => do
        state.announce outcome
        state.awaitJobs (statusOf outcome) rest
    else state.awaitJobs 127 rest

def wait (arguments : List String) : Program ScriptStep :=
  match arguments with
  | [] => do
    let (after, _) ← state.awaitJobs 0 state.jobs
    { after with jobs := [] }.answer 0
  | _ =>
    match arguments.mapM fun text => Reading.integer? text.toList with
    | some processes => state.awaitJobs 0 processes
    | none => state.refuse ("Illegal number: " ++ " ".intercalate arguments) 2

def forget : List String → ScriptState
  | "-f" :: names => { state with functions := names.foldl Dictionary.erase state.functions }
  | "-v" :: names | names => { state with bindings := names.foldl Dictionary.erase state.bindings }

def isSpecial (name : String) : Bool :=
  Script.specialNames.contains name

def builtinNames : List String :=
  [":", ".", "[", "break", "cd", "command", "continue", "echo", "eval", "exec", "exit", "export",
    "false", "hash", "kill", "local", "printf", "pwd", "read", "readonly", "return", "set", "shift",
    "test", "times", "trap", "true", "type", "umask", "unset", "wait"]

def complainAll (state : ScriptState) : List String → Program Unit
  | [] => .done ()
  | problem :: rest => do
    state.complain problem
    complainAll state rest

def builtin? (arguments : List String) : String → Option (Program ScriptStep)
  | ":" | "true" | "times" | "hash" | "umask" => some (state.answer 0)
  | "false" => some (state.answer 1)
  | "exit" => some (state.leave "exit" arguments fun code => .ended (.exited code))
  | "return" => some (state.leave "return" arguments fun _ => .returned)
  | "cd" => some (state.changeDirectory arguments)
  | "pwd" =>
    some (state.presentLine (if arguments = ["-P"] then state.place else state.directory) 0)
  | "export" => some (state.declareAll mark (arguments.filter (· ≠ "-p")))
  | "readonly" =>
    some (state.declareAll
      (fun current name => { current with fixed := name :: current.fixed })
      (arguments.filter (· ≠ "-p")))
  | "local" => some (state.declareAll hide arguments)
  | "unset" => some ((state.forget arguments).answer 0)
  | "shift" =>
    let count := countIn arguments
    some (
      if state.arguments.length < count then state.giveUp "can't shift that many"
      else { state with arguments := state.arguments.drop count }.answer 0)
  | "set" => some ((state.setOptions arguments).answer 0)
  | "read" => some (state.readVariables arguments)
  | "kill" => some (state.sendSignals arguments)
  | "trap" =>
    some (
      if arguments.isEmpty then state.present (Utf8.encode state.trapLines) 0
      else state.changeTraps arguments)
  | "wait" => some (state.wait arguments)
  | "break" => some (state.leaveLoops arguments .broke)
  | "continue" => some (state.leaveLoops arguments .skipped)
  | "echo" =>
    let (noLineEnd, words) : Bool × List String := match arguments with
      | "-n" :: rest => (true, rest)
      | other => (false, other)
    some (state.present (Programs.echoBytes noLineEnd (some ⟨true, false⟩) words) 0)
  | "printf" =>
    some <|
      match Programs.formatted? .ofScripts arguments with
      | none => state.refuse "usage: printf format [arg ...]" 2
      | some written =>
        .write state.output written.bytes fun _ => do
          complainAll state written.complaints
          state.answer written.code
  | "test" => some (state.judge arguments)
  | "[" =>
    some (
      if arguments.getLast? = some "]" then state.judge arguments.dropLast
      else state.refuse "missing ]" 2)
  | _ => none

end ScriptState

end HybridShell
