import HybridShell.Number.Reading
import HybridShell.Programs.Context
import HybridShell.Programs.Script.Tree

/-!
# The state of a running script

A script has variables, arguments, functions, streams, a directory and the
status of its last command.
-/

namespace HybridShell

structure ScriptOptions where
  exitOnFailure : Bool
  demandValues : Bool
  trace : Bool
  keepWildcards : Bool
  deriving Repr, DecidableEq

namespace ScriptOptions

def none : ScriptOptions := ⟨false, false, false, false⟩

/-- Set the option of a letter; one without effect here is accepted. -/
def set (options : ScriptOptions) (letter : Char) (value : Bool) : ScriptOptions :=
  match letter with
  | 'e' => { options with exitOnFailure := value }
  | 'u' => { options with demandValues := value }
  | 'x' => { options with trace := value }
  | 'f' => { options with keepWildcards := value }
  | _ => options

def setAll (options : ScriptOptions) (letters : List Char) (value : Bool) : ScriptOptions :=
  letters.foldl (·.set · value) options

def letters (options : ScriptOptions) : String :=
  (if options.exitOnFailure then "e" else "") ++ (if options.keepWildcards then "f" else "")
    ++ (if options.demandValues then "u" else "") ++ (if options.trace then "x" else "")

end ScriptOptions

structure ScriptState where
  name : String
  arguments : List String
  bindings : Dictionary String
  exported : List String
  fixed : List String
  functions : Dictionary Script
  directory : String
  line : Nat
  speaker : Option String
  status : Int
  processId : Int
  ownProcess : Int
  streams : List (Option Descriptor)
  options : ScriptOptions
  /-- What to run when a signal arrives; number zero is the end of the script. -/
  traps : List (Int × String)
  jobs : List Int
  lastJob : Option Int
  hidden : List (List (String × Option String))
  loops : Nat
  substituted : Option Int

namespace ScriptState

def standardStreams : List (Option Descriptor) :=
  [some .input, some .output, some .error]

def start (context : ProcessContext) (name : String) (arguments : List String)
    (options : ScriptOptions) : ScriptState :=
  let inherited := (context.environment.get? "PWD").filter fun path =>
    Path.isAbsolute path && Path.render (Path.resolved (Path.names path)) = context.directory
  let directory := inherited.getD context.directory
  { name
    arguments
    bindings := (context.environment.insert "PWD" directory).erase "IFS"
    exported := context.environment.keys
    fixed := []
    functions := ∅
    directory
    line := 1
    speaker := none
    status := 0
    processId := context.processId
    ownProcess := context.processId
    streams := standardStreams
    options
    traps := []
    jobs := []
    lastJob := none
    hidden := []
    loops := 0
    substituted := none }

def noDescriptor : Descriptor := Nat.pow 2 30

variable (state : ScriptState)

def stream (number : Nat) : Descriptor :=
  (state.streams[number]?.join).getD noDescriptor

def setStream (number : Nat) (descriptor : Option Descriptor) : ScriptState :=
  let missing := List.replicate (number + 1 - state.streams.length) none
  { state with streams := (state.streams ++ missing).set number descriptor }

def output : Descriptor :=
  state.stream Descriptor.output

def error : Descriptor :=
  state.stream Descriptor.error

def parameter? (name : String) : Option String :=
  match name with
  | "?" => some (toString state.status)
  | "$" => some (toString state.processId)
  | "#" => some (toString state.arguments.length)
  | "@" | "*" => if state.arguments.isEmpty then none else some (" ".intercalate state.arguments)
  | "0" => some state.name
  | "-" => some state.options.letters
  | "!" => state.lastJob.map toString
  | other =>
    match Reading.natural? other.toList with
    | some number => state.arguments[number - 1]?
    | none => state.bindings.get? other

def lookUp (name : String) : String :=
  (state.parameter? name).getD ""

def separators : List Char :=
  ((state.bindings.get? "IFS").map String.toList).getD [' ', '\t', '\n']

def assign (name value : String) : ScriptState :=
  { state with bindings := state.bindings.insert name value }

def restore (name : String) (value : Option String) : ScriptState :=
  match value with
  | some text => state.assign name text
  | none => { state with bindings := state.bindings.erase name }

def mark (name : String) : ScriptState :=
  if state.exported.contains name then state
  else { state with exported := state.exported ++ [name] }

def environment : Dictionary String :=
  ⟨state.bindings.entries.filter fun (key, _) => state.exported.contains key⟩

def trap? (signal : Int) : Option String :=
  (state.traps.find? (·.1 = signal)).map Prod.snd

/-- The state of a new process of the script, which only keeps the signals that it ignores. -/
def separated (process : Int) : ScriptState :=
  { state with
    ownProcess := process
    streams := (List.range state.streams.length).map some
    traps := state.traps.filter fun (signal, action) => signal ≠ 0 && action.isEmpty
    jobs := [] }

def speakingAs (speaker : Option String) : ScriptState :=
  { state with speaker }

def complain (problem : String) : Program Unit :=
  .say state.error (state.name ++ ": " ++ toString state.line ++ ": "
    ++ state.speaker.elim "" (· ++ ": ") ++ problem ++ "\n")

def asProcess {α : Type} (process : Int) (body : ScriptState → Program Outcome) : Program α :=
  .adopt (state.streams.map (·.getD noDescriptor)) fun _ =>
    (body (state.separated process)).bind .halt

def startProcess {α : Type} (body : ScriptState → Program Outcome) (next : Int → Program α) :
    Program α :=
  .fork fun isNew process => if isNew then state.asProcess process body else next process

def place : String :=
  Path.render (Path.resolved (Path.names state.directory))

end ScriptState

end HybridShell
