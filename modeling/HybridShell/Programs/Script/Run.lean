import HybridShell.Programs.Script.Builtin
import HybridShell.Programs.Script.Expansion
import HybridShell.Programs.Utilities

/-!
# Running scripts

A script becomes a program.  The programs that it starts, the parts of its
pipelines and its subshells are processes of their own; everything else is
done by the process of the script.
-/

namespace HybridShell

namespace Script

structure Position where
  tested : Bool
  last : Bool
  deriving Repr, DecidableEq

namespace Position

def inner (position : Position) : Position :=
  { position with last := false }

def looked (position : Position) : Position :=
  { position with tested := true, last := false }

def whole (position : Position) : Position :=
  { position with last := true }

def outermost : Position := ⟨false, false⟩

end Position

abbrev Runner := Position → Script → ScriptState → Program ScriptStep

/-- Go on after a step, unless it leaves its place in the script. -/
def andThen (first : Program ScriptStep) (next : ScriptState → Program ScriptStep) :
    Program ScriptStep := do
  let (after, flow) ← first
  if flow = .onward then next after else .done (after, flow)

open ScriptWord (Attempt Substitution)

/-- Go on with the result of an attempt, or give up with its problem. -/
def orGiveUp {α : Type} (state : ScriptState) (attempt : Attempt α)
    (next : α → Program ScriptStep) : Program ScriptStep := do
  match ← attempt.run with
  | .error problem => state.giveUp problem
  | .ok value => next value

def reason (missing : String) (error : SystemError) : String :=
  if error = .notFound || error = .notDirectory then missing else error.plainMessage

def outcome : ScriptStep → Outcome
  | (_, .ended outcome) => outcome
  | (_, .failed) => .exited 2
  | (state, _) => .exited state.status

def watched (position : Position) (step : ScriptStep) : ScriptStep :=
  let (state, flow) := step
  if flow = .onward && state.status ≠ 0 && state.options.exitOnFailure && !position.tested then
    (state, .ended (.exited state.status))
  else step

def conclude (run : Runner) (step : ScriptStep) : Program Outcome :=
  let ended := outcome step
  match step.1.trap? 0 with
  | none | some "" => .done ended
  | some action => do
    let state :=
      { step.1.setTraps none [0] with
        status := ScriptState.statusOf ended
        speaker := none }
    match ← run .outermost (ofText 1 action) state with
    | (_, .ended other) => .done other
    | (_, .failed) => .done (.exited 2)
    | _ => .done ended

def runWhole (run : Runner) (position : Position) (script : Script) (state : ScriptState) :
    Program Outcome := do
  conclude run (← run position script state)

def serve (run : Runner) : List Int → ScriptState → Program ScriptStep
  | [], state => .done (state, .onward)
  | signal :: rest, state =>
    andThen (run .outermost (ofText 1 ((state.trap? signal).getD "")) state) fun after =>
      serve run rest { after with status := state.status }

def serveArrived (run : Runner) (step : ScriptStep) : Program ScriptStep :=
  let (state, flow) := step
  if state.traps.isEmpty || flow ≠ .onward then .done step
  else .takeSignals fun arrived => serve run arrived state

structure Call where
  options : ScriptOptions
  isText : Bool
  isInput : Bool
  operands : List String

def readCall (call : Call) : List String → Call
  | [] => call
  | "--" :: rest | "-" :: rest => { call with operands := rest }
  | "-o" :: name :: rest =>
    readCall { call with options := call.options.setAll (ScriptState.longOption name) true } rest
  | first :: rest =>
    match first.toList with
    | '-' :: letters =>
      readCall
        { call with
          options := call.options.setAll letters true
          isText := call.isText || letters.contains 'c'
          isInput := call.isInput || letters.contains 's' } rest
    | '+' :: letters =>
      readCall { call with options := call.options.setAll letters false } rest
    | _ => { call with operands := first :: rest }

def runFile (run : Runner) (context : ProcessContext) (path : String) (arguments : List String)
    (options : ScriptOptions) : Program Outcome := do
  let state (name : String) := ScriptState.start context name arguments options
  match ← Program.readInput context path with
  | .error .isDirectory => .exit 0
  | .error error => do
    let unread := { state context.name with line := 0 }
    unread.complain ("cannot open " ++ path ++ ": " ++ reason "No such file" error)
    .exit 2
  | .ok bytes => runWhole run .outermost (ofText 1 (Utf8.decode bytes)) (state path)

def interpret (run : Runner) (context : ProcessContext) : Program Outcome :=
  let call := readCall ⟨.none, false, false, []⟩ context.arguments
  let start (name : String) (arguments : List String) : ScriptState :=
    .start context name arguments call.options
  match call.isText, call.operands with
  | true, text :: rest =>
    runWhole run ⟨false, true⟩ (ofText 1 text) (start (rest.headD context.name) rest.tail)
  | true, [] =>
    .sayAndExit .error (context.name ++ ": 0: -c requires an argument\n") 2
  | false, operands =>
    match call.isInput, operands with
    | false, path :: arguments => runFile run context path arguments call.options
    | _, _ => do
      let bytes ← Program.readAll .input
      runWhole run .outermost (ofText 1 (Utf8.decode bytes)) (start context.name operands)

/-- Where the program of a name is in some directories, and whether it cannot be run there. -/
def searchPath (state : ScriptState) (name : String) (found : Bool) :
    List String → Program (Except Bool String)
  | [] => .done (.error found)
  | directory :: rest =>
    let path := Path.join directory name
    .inspect (Path.join state.directory path) fun
      | some (.file true) => .done (.ok path)
      | some (.file false) => searchPath state name true rest
      | _ => searchPath state name found rest

def locate (state : ScriptState) (name : String) : Program (Except (String × Int) String) :=
  if name.contains '/' then .done (.ok name)
  else if name.isEmpty then .done (.error ("not found", 127))
  else do
    let found ← searchPath state name false ((state.lookUp "PATH").splitOn ":")
    .done (found.mapError fun refused =>
      (if refused then "Permission denied" else "not found", 127))

def startFault (error : SystemError) : String × Int :=
  (reason "not found" error,
    if [.notFound, .notDirectory, .tooManyLinks, .nameTooLong].contains error then 127 else 126)

def find (state : ScriptState) (name : String) :
    Program (Except (String × Int) Executable) := do
  match ← locate state name with
  | .error problem => .done (.error problem)
  | .ok path =>
    .load state.directory path fun loaded => .done (loaded.mapError startFault)

def awaited (state : ScriptState) (process : Int) : Program ScriptStep :=
  .await process fun outcome => do
    state.announce outcome
    state.answer (ScriptState.statusOf outcome)

def external (run : Runner) (position : Position) (state assigned : ScriptState)
    (name : String) (arguments : List String) : Program ScriptStep := do
  match ← find assigned name with
  | .error (problem, status) => state.refuse (name ++ ": " ++ problem) status
  | .ok executable =>
    let words := executable.commandLine (name :: arguments)
    let body (own : ScriptState) : Program Outcome :=
      executable.utility.program (interpret run)
        ⟨words.headD "", words.tail, own.place, own.environment, own.ownProcess⟩
    if position.last && state.traps.isEmpty then assigned.asProcess assigned.ownProcess body
    else assigned.startProcess body (awaited state)

/-- Open the targets of redirections, and tell which descriptors to close after use. -/
def openTargets (substitute : Substitution) (state : ScriptState) (opened : List Descriptor) :
    List ScriptRedirect → Attempt (ScriptState × List Descriptor)
  | [] => return (state, opened)
  | redirect :: rest => do
    let (target, expanded) ← ScriptWord.expandOne substitute state redirect.target
    let openAs (mode : FileMode) (verb missing : String) :
        Attempt (Option Descriptor × List Descriptor) := do
      match ← (.openFile (Path.join state.place target) mode .done : Program _) with
      | .ok descriptor => return (some descriptor, [descriptor])
      | .error error =>
        throw ("cannot " ++ verb ++ " " ++ target ++ ": " ++ reason missing error)
    let (descriptor, more) ← match redirect.mode with
      | .read => openAs .read "open" "No such file"
      | .write => openAs .write "create" "Directory nonexistent"
      | .append => openAs .append "create" "Directory nonexistent"
      | .document =>
        (.makePipe fun reader writer =>
          .write writer (Utf8.encode target) fun _ =>
            .close writer fun _ => .done (some reader, [reader]) : Program _)
      | .duplicate =>
        match target, Reading.natural? target.toList with
        | "-", _ => pure (none, [])
        | _, some number =>
          match state.streams[number]?.join with
          | some descriptor => pure (some descriptor, [])
          | none => throw (target ++ ": Bad file descriptor")
        | _, none => throw "Bad fd number"
    openTargets substitute (expanded.setStream redirect.descriptor descriptor) (more ++ opened) rest

def closing (step : ScriptStep) : List Descriptor → Program ScriptStep
  | [] => .done step
  | descriptor :: rest => .close descriptor fun _ => closing step rest

def assignAll (substitute : Substitution) (state : ScriptState) :
    List (String × ScriptWord) → Attempt ScriptState
  | [] => return state
  | (name, word) :: rest => do
    let (value, after) ← ScriptWord.expandOne substitute state word
    if after.fixed.contains name then throw (name ++ ": is read only")
    else assignAll substitute (after.assign name value) rest

def takeBack (before : ScriptState) (names : List String) (step : ScriptStep) : ScriptStep :=
  if names.isEmpty then step
  else
    let (after, flow) := step
    ({ names.foldl (fun current name => current.restore name (before.bindings.get? name)) after with
        exported := before.exported }, flow)

def callFunction (run : Runner) (position : Position) (state : ScriptState) (body : Script)
    (arguments : List String) : Program ScriptStep := do
  let entered := { state with arguments, hidden := [] :: state.hidden, loops := 0 }
  let (after, flow) ← run position.inner body entered
  let left := { after.unhide with arguments := state.arguments, loops := state.loops }
  match flow with
  | .ended _ | .failed => .done (left, flow)
  | _ => .done (left, .onward)

def runPart (run : Runner) (position : Position) (state : ScriptState) (name : String)
    (arguments : List String) : Program ScriptStep := do
  let context : ProcessContext :=
    ⟨state.name, arguments, state.place, state.environment, state.ownProcess⟩
  match ← Program.readInput context name with
  | .error _ =>
    (state.speakingAs (some ".")).giveUp ("cannot open " ++ name ++ ": No such file")
  | .ok bytes => do
    let (after, flow) ← run position.inner (ofText 1 (Utf8.decode bytes))
      (state.speakingAs (some name))
    .done ({ after with line := state.line, speaker := state.speaker },
      if flow = .returned then .onward else flow)

def describe (state : ScriptState) (sentence : Bool) (name : String) :
    Program ScriptStep := do
  let tell (kind word : String) : Program ScriptStep :=
    state.presentLine (if sentence then name ++ kind else word) 0
  if ScriptToken.reserved.contains name then tell " is a shell keyword" name
  else if ScriptState.builtinNames.contains name then
    tell (if ScriptState.isSpecial name then " is a special shell builtin"
      else " is a shell builtin") name
  else if state.functions.contains name then tell " is a shell function" name
  else
    match ← locate state name with
    | .ok path => tell (" is " ++ path) path
    | .error _ =>
      if sentence then state.presentLine (name ++ ": not found") 127 else state.answer 127

def describeAll (status : Int) : List String → ScriptState → Program ScriptStep
  | [], state => state.answer status
  | name :: rest, state => do
    let (after, _) ← describe state true name
    describeAll (if after.status = 0 then status else after.status) rest after

def command (run : Runner) (position : Position) (state assigned : ScriptState)
    (names : List String) (callable : Bool) :
    Nat → String → List String → Program ScriptStep
  | 0, _, _ => state.answer 2
  | depth + 1, name, arguments => do
    let temporary (program : Program ScriptStep) : Program ScriptStep := do
      .done (takeBack state names (← program))
    match name, state.functions.get? name with
    | "eval", _ => do
      let (after, flow) ← run position (ofText 1 (" ".intercalate arguments))
        (assigned.speakingAs (some "eval"))
      .done ({ after with line := state.line, speaker := state.speaker }, flow)
    | ".", _ =>
      match arguments with
      | [] => assigned.answer 0
      | path :: rest => runPart run position assigned path rest
    | "exec", _ =>
      match arguments with
      | [] => assigned.answer 0
      | target :: operands => do
        match ← find assigned target with
        | .error (problem, status) => do
          (state.speakingAs (some "exec")).complain (target ++ ": " ++ problem)
          .done ({ state with status }, .ended (.exited status))
        | .ok _ =>
          external run ⟨false, true⟩ { state with traps := [] } assigned target operands
    | _, some body =>
      if callable && !ScriptState.isSpecial name then
        temporary (callFunction run position assigned body arguments)
      else builtinOrProgram depth name arguments temporary
    | _, none => builtinOrProgram depth name arguments temporary
where
  builtinOrProgram (depth : Nat) (name : String) (arguments : List String)
      (temporary : Program ScriptStep → Program ScriptStep) : Program ScriptStep :=
    match (assigned.speakingAs (some name)).builtin? arguments name, name with
    | some program, _ => do
      let (after, flow) ← if ScriptState.isSpecial name then program else temporary program
      .done (after.speakingAs state.speaker, flow)
    | none, "type" => temporary (describeAll 0 arguments assigned)
    | none, "command" =>
      match arguments.dropWhile (· = "-p") with
      | "-v" :: target :: _ => temporary (describe assigned false target)
      | "-V" :: target :: _ => temporary (describe assigned true target)
      | "-v" :: _ | "-V" :: _ | [] => state.answer 0
      | target :: operands => do
        match ← command run position state assigned names false depth target operands with
        | (after, .failed) => .done (after.speakingAs state.speaker, .onward)
        | step => .done step
    | none, _ => external run position state assigned name arguments

/-- What follows a round of a loop; nothing when that is the next round. -/
def afterRound : Flow → Option Flow
  | .onward | .skipped 1 => none
  | .broke 1 => some .onward
  | .broke levels => some (.broke (levels - 1))
  | .skipped levels => some (.skipped (levels - 1))
  | other => some other

def eachValue (body : ScriptState → Program ScriptStep) (name : String) :
    List String → ScriptState → Program ScriptStep
  | [], state => .done (state, .onward)
  | value :: rest, state => do
    let (after, flow) ←
      if state.fixed.contains name then state.giveUp (name ++ ": is read only")
      else body (state.assign name value)
    match afterRound flow with
    | none => .checkInterrupt fun _ => eachValue body name rest after
    | some left => .done (after, left)

def outputOf (run : Runner) (text : String) (state : ScriptState) :
    Program (String × ScriptState) :=
  .makePipe fun reader writer =>
    (state.setStream Descriptor.output (some writer)).startProcess
      (runWhole run ⟨false, true⟩ (ofText state.line text)) fun process =>
        .close writer fun _ => do
          let bytes ← Program.readAll reader
          .close reader fun _ =>
            .await process fun outcome =>
              .done (Utf8.decode bytes,
                { state with substituted := some (ScriptState.statusOf outcome) })

def matchesAny (substitute : Substitution) (text : List Char) :
    List ScriptWord → ScriptState → Attempt (Bool × ScriptState)
  | [], state => return (false, state)
  | pattern :: rest, state => do
    let (glyphs, after) ← ScriptWord.expandGlyphs substitute state pattern
    if (WildPattern.ofGlyphs glyphs).matchesText text then return (true, after)
    else matchesAny substitute text rest after

def chosen (substitute : Substitution) (text : List Char) :
    Script → ScriptState → Attempt (Script × ScriptState)
  | .clause patterns body others, state => do
    let (found, after) ← matchesAny substitute text patterns state
    if found then return (body, after) else chosen substitute text others after
  | _, state => return (.empty, state)

def traced (state : ScriptState) (assignments : List String) (fields : List String) :
    Program Unit :=
  if state.options.trace then
    let bindings := assignments.map fun name => name ++ "=" ++ state.lookUp name
    .say state.error ("+ " ++ " ".intercalate (bindings ++ fields) ++ "\n")
  else .done ()

def runSimple (run : Runner) (substitute : Substitution) (position : Position)
    (state : ScriptState) (fields : List String) (assignments : List (String × ScriptWord))
    (redirects : List ScriptRedirect) : Program ScriptStep := do
  let name := fields.headD ""
  let back (step : ScriptStep) : ScriptStep :=
    ({ step.1 with streams := state.streams }, step.2)
  match ← (openTargets substitute state [] redirects).run with
  | .error problem =>
    if ScriptState.isSpecial name then state.giveUp problem else state.refuse problem 2
  | .ok (prepared, opened) =>
    orGiveUp prepared (assignAll substitute prepared assignments) fun assigned => do
      let names := assignments.map Prod.fst
      traced assigned names fields
      match fields with
      | [] =>
        let status := assigned.substituted.getD 0
        closing (back ({ assigned with status }, .onward)) opened
      | ["exec"] => .done ({ assigned with status := 0 }, .onward)
      | name :: arguments => do
        let marked := names.foldl ScriptState.mark assigned
        let step ← command run position prepared marked names true (arguments.length + 1)
          name arguments
        closing (back step) opened

def run : Nat → Runner
  | 0, _, _, state => .done (state, .ended (.exited 2))
  | steps + 1, position, script, state =>
    let substitute := outputOf (run steps)
    match script with
    | .empty => .done (state, .onward)
    | .faulty fault => { state with line := fault.line }.giveUp fault.problem.message
    | .located line body => run steps position body { state with line }
    | .function name body =>
      { state with functions := state.functions.insert name body }.answer 0
    | .simple assignments words redirects =>
      let fresh := { state with substituted := none }
      orGiveUp fresh (ScriptWord.expandAll substitute fresh words) fun (fields, expanded) => do
        let step ← runSimple (run steps) substitute position expanded fields assignments
          redirects
        serveArrived (run steps) (watched position step)
    | .sequence first second =>
      andThen (run steps position.inner first state) (run steps position second)
    | .both first second =>
      andThen (run steps position.looked first state) fun after =>
        if after.status = 0 then run steps position second after else .done (after, .onward)
    | .either first second =>
      andThen (run steps position.looked first state) fun after =>
        if after.status = 0 then .done (after, .onward) else run steps position second after
    | .not body => do
      let (after, flow) ← run steps position.looked body state
      .done ({ after with status := if after.status = 0 then 1 else 0 }, flow)
    | .pipe left right =>
      .makePipe fun reader writer =>
        (state.setStream Descriptor.output (some writer)).startProcess
          (runWhole (run steps) position.whole left) fun first =>
            .close writer fun _ =>
              (state.setStream Descriptor.input (some reader)).startProcess
                (runWhole (run steps) position.whole right) fun second =>
                  .close reader fun _ => do
                    let (after, _) ← awaited state second
                    .await first fun _ => .done (watched position (after, .onward))
    | .background body =>
      (state.setStream Descriptor.input none).startProcess
        (runWhole (run steps) ⟨false, true⟩ body) fun process =>
          { state with jobs := state.jobs ++ [process], lastJob := some process }.answer 0
    | .redirected body redirects => do
      match ← (openTargets substitute state [] redirects).run with
      | .error problem => .done (watched position (← state.refuse problem 2))
      | .ok (inner, opened) => do
        let (after, flow) ← run steps position.inner body inner
        closing ({ after with streams := state.streams }, flow) opened
    | .subshell body =>
      state.startProcess (runWhole (run steps) position.whole body) fun process => do
        .done (watched position (← awaited state process))
    | .branch condition consequent alternative =>
      andThen (run steps position.looked condition state) fun after =>
        if after.status = 0 then run steps position consequent after
        else run steps position alternative { after with status := 0 }
    | .loop expected condition body => do
      let around := state.loops
      let leave (ended : ScriptState) (flow : Flow) : Program ScriptStep :=
        .done ({ ended with loops := around }, flow)
      let (tested, flow) ←
        run steps position.looked condition { state with loops := around + 1 }
      match flow with
      | .onward =>
        if (tested.status == 0) != expected then leave { tested with status := 0 } .onward
        else do
          let (after, next) ← run steps position.inner body tested
          match afterRound next with
          | none =>
            .checkInterrupt fun _ =>
              run steps position (.loop expected condition body)
                { after with loops := around }
          | some left => leave after left
      | .skipped levels => leave tested (.skipped levels)
      | other => leave tested ((afterRound other).getD other)
    | .each name words body =>
      let values : Attempt (List String × ScriptState) := match words with
        | none => return (state.arguments, state)
        | some given => ScriptWord.expandAll substitute state given
      orGiveUp state values fun (fields, expanded) => do
        let (after, flow) ← eachValue (run steps position.inner body) name fields
          { expanded with status := 0, loops := state.loops + 1 }
        .done ({ after with loops := state.loops }, flow)
    | .choose subject clauses =>
      orGiveUp state (ScriptWord.expandOne substitute state subject) fun (text, expanded) =>
        orGiveUp expanded (chosen substitute text.toList clauses expanded) fun (body, after) =>
          run steps position body { after with status := 0 }
    | .clause _ body _ => run steps position body state

end Script

namespace Programs

def sh (context : ProcessContext) : Program Outcome :=
  Script.interpret (Script.run ScriptWord.manySteps) context

end Programs

end HybridShell
