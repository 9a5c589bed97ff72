import HybridShell.Files.Interpreter

/-!
# The state of the machine

The machine holds a file tree, a clock, streams and tasks, by number.  A stream
has two sides: what a task knows by a descriptor is an endpoint of it.
-/

namespace HybridShell

/-- Items by the number they were given when they were added. -/
structure Store (α : Type) where
  items : Array α

namespace Store

variable {α : Type}

def empty : Store α :=
  ⟨#[]⟩

instance : Inhabited (Store α) := ⟨empty⟩

def size (store : Store α) : Nat :=
  store.items.size

def get? (store : Store α) (number : Nat) : Option α :=
  store.items[number]?

def add (store : Store α) (item : α) : Store α :=
  ⟨store.items.push item⟩

def set (store : Store α) (number : Nat) (item : α) : Store α :=
  ⟨store.items.setIfInBounds number item⟩

def modify (store : Store α) (number : Nat) (change : α → α) : Store α :=
  match store.get? number with
  | some item => store.set number (change item)
  | none => store

def map (store : Store α) (change : α → α) : Store α :=
  ⟨store.items.map change⟩

def toList (store : Store α) : List α :=
  store.items.toList

@[simp] theorem size_add (store : Store α) (item : α) : (store.add item).size = store.size + 1 := by
  simp [size, add]

@[simp] theorem size_set (store : Store α) (number : Nat) (item : α) :
    (store.set number item).size = store.size := by
  simp [size, set]

@[simp] theorem size_modify (store : Store α) (number : Nat) (change : α → α) :
    (store.modify number change).size = store.size := by
  unfold modify
  split
  · exact store.size_set number _
  · rfl

@[simp] theorem get?_add_size (store : Store α) (item : α) :
    (store.add item).get? store.size = some item := by
  simp [get?, add, size]

theorem get?_add_of_lt (store : Store α) (item : α) {number : Nat} (given : number < store.size) :
    (store.add item).get? number = store.get? number := by
  have distinct : number ≠ store.items.size := Nat.ne_of_lt given
  simp [get?, add, Array.getElem?_push, distinct]

theorem get?_set_of_ne (store : Store α) {number other : Nat} (item : α)
    (distinct : number ≠ other) :
    (store.set number item).get? other = store.get? other := by
  simp [get?, set, distinct]

theorem get?_set_self (store : Store α) {number : Nat} (item : α) (given : number < store.size) :
    (store.set number item).get? number = some item := by
  have bound : number < store.items.size := given
  simp [get?, set, bound]

end Store

inductive Endpoint where
  | null
  | terminalInput
  | terminalOutput
  | terminalError
  | file (number : Nat)
  | pipeReader (number : Nat)
  | pipeWriter (number : Nat)
  /-- Collects what is written; a live buffer also shows it on the terminal. -/
  | buffer (number : Nat) (live closes : Bool)
  deriving Repr, DecidableEq

namespace Endpoint

def isBuffer : Endpoint → Bool
  | buffer _ _ _ => true
  | _ => false

end Endpoint

structure Pipe where
  content : Rope
  writers : Nat
  readers : Nat

namespace Pipe

def capacity : Nat := 65536

def isFull (pipe : Pipe) : Bool :=
  capacity ≤ pipe.content.size

end Pipe

structure Collector where
  buffer : StreamBuffer
  writers : Nat

namespace Collector

/-- Give up an endpoint; the last one closes the buffer. -/
def release (collector : Collector) : Collector :=
  { buffer := if collector.writers ≤ 1 then collector.buffer.close else collector.buffer
    writers := collector.writers - 1 }

end Collector

/-- A file that was opened, and where reading and writing go on in it. -/
structure OpenFile where
  place : List String
  position : Nat
  append : Bool

inductive TaskState where
  | ready (program : Program Outcome)
  | waiting (program : Program Outcome)
  | sleeping (wake : Nat) (program : Program Outcome)
  | stopped (program : Program Outcome)
  | ended (outcome : Outcome)

namespace TaskState

def program? : TaskState → Option (Program Outcome)
  | ready program => some program
  | waiting program => some program
  | sleeping _ program => some program
  | stopped program => some program
  | ended _ => none

def outcome? : TaskState → Option Outcome
  | ended outcome => some outcome
  | _ => none

def isStopped : TaskState → Bool
  | stopped _ => true
  | _ => false

end TaskState

structure Task where
  state : TaskState
  descriptors : List (Option Endpoint)
  flag : Nat
  isProcess : Bool
  parent : Option Nat
  caught : List Int
  ignored : List Int
  arrived : List Int

structure Machine where
  tree : FileTree
  clock : Nat
  tasks : Store Task
  pipes : Store Pipe
  buffers : Store Collector
  files : Store OpenFile
  /-- Requests to give up; the first one is the session's. -/
  flags : Store Bool
  typed : Bytes
  shown : Rope
  complained : Rope

namespace Machine

def sessionFlag : Nat := 0

def start (tree : FileTree) (typed : Bytes) : Machine :=
  { tree, clock := 0, tasks := .empty, pipes := .empty, buffers := .empty, files := .empty,
    flags := Store.empty.add false, typed, shown := .empty, complained := .empty }

def processId (task : Nat) : Int :=
  1000 + task

variable (machine : Machine)

def taskOf? (process : Int) : Option Nat :=
  let number := (process - 1000).toNat
  if processId number = process ∧ number < machine.tasks.size then some number else none

def isRaised (flag : Nat) : Bool :=
  (machine.flags.get? flag).getD false

def setFlag (flag : Nat) (raised : Bool) : Machine :=
  { machine with flags := machine.flags.set flag raised }

def display (bytes : Bytes) : Machine :=
  { machine with shown := machine.shown.push bytes }

def complain (bytes : Bytes) : Machine :=
  { machine with complained := machine.complained.push bytes }

inductive Reading where
  | later
  | finished
  | bytes (chunk : Bytes) (machine : Machine)

/-- Read a portion of what is there from an endpoint; a line is not there before its end. -/
def readFrom (portion : Portion) : Endpoint → Reading
  | .terminalInput =>
    if machine.typed.isEmpty then .finished
    else
      let size := portion.size machine.typed
      .bytes (machine.typed.take size) { machine with typed := machine.typed.drop size }
  | .file number =>
    match machine.files.get? number with
    | none => .finished
    | some opened =>
      match machine.tree.at? opened.place with
      | none => .finished
      | some entry =>
        let left := entry.bytes.drop opened.position
        if left.isEmpty then .finished
        else
          let taken := left.take (portion.size left)
          let advanced := { opened with position := opened.position + taken.length }
          .bytes taken { machine with files := machine.files.set number advanced }
  | .pipeReader number =>
    match machine.pipes.get? number with
    | none => .finished
    | some pipe =>
      let bytes := pipe.content.toBytes
      let complete := pipe.writers = 0 ∨ portion ≠ .line ∨ pipe.isFull ∨ bytes.contains 10
      if !bytes.isEmpty && complete then
        let taken := bytes.take (portion.size bytes)
        let drained := { pipe with content := pipe.content.dropFront taken.length }
        .bytes taken { machine with pipes := machine.pipes.set number drained }
      else if pipe.writers = 0 then .finished
      else .later
  | _ => .finished

def kindOf? : Endpoint → Option EntryKind
  | .file number =>
    (machine.files.get? number).bind fun opened =>
      (machine.tree.at? opened.place).map Entry.kind
  | _ => none

def writingPlace (opened : OpenFile) : Nat :=
  if opened.append then ((machine.tree.at? opened.place).map Entry.size).getD 0
  else opened.position

def wouldMeet : Endpoint → Endpoint → Bool
  | .file source, .file sink =>
    match machine.files.get? source, machine.files.get? sink with
    | some reading, some writing =>
      reading.place = writing.place && reading.position < machine.writingPlace writing
    | _, _ => false
  | _, _ => false

def writeTo (bytes : Bytes) : Endpoint → Machine
  | .terminalOutput => machine.display bytes
  | .terminalError => machine.complain bytes
  | .file number =>
    match machine.files.get? number with
    | none => machine
    | some opened =>
      let position := if opened.append then none else some opened.position
      let advanced := { opened with position := opened.position + bytes.length }
      { machine with
        tree := machine.tree.writeAt opened.place position bytes
        files := machine.files.set number advanced }
  | .pipeWriter number =>
    { machine with
      pipes := machine.pipes.modify number fun pipe =>
        { pipe with content := pipe.content.push bytes } }
  | .buffer number live _ =>
    let collected :=
      { machine with
        buffers := machine.buffers.modify number fun collector =>
          { collector with buffer := collector.buffer.push bytes } }
    if live then collected.display bytes else collected
  | _ => machine

inductive Writing where
  | possible
  | later
  | broken
  deriving Repr, DecidableEq

def writing : Endpoint → Writing
  | .pipeWriter number =>
    match machine.pipes.get? number with
    | none => .broken
    | some pipe =>
      if pipe.readers = 0 then .broken else if pipe.isFull then .later else .possible
  | _ => .possible

def shareEndpoint : Endpoint → Machine
  | .pipeReader number =>
    { machine with
      pipes := machine.pipes.modify number fun pipe => { pipe with readers := pipe.readers + 1 } }
  | .pipeWriter number =>
    { machine with
      pipes := machine.pipes.modify number fun pipe => { pipe with writers := pipe.writers + 1 } }
  | .buffer number _ true =>
    { machine with
      buffers := machine.buffers.modify number fun collector =>
        { collector with writers := collector.writers + 1 } }
  | _ => machine

def closeEndpoint : Endpoint → Machine
  | .pipeReader number =>
    { machine with
      pipes := machine.pipes.modify number fun pipe => { pipe with readers := pipe.readers - 1 } }
  | .pipeWriter number =>
    { machine with
      pipes := machine.pipes.modify number fun pipe => { pipe with writers := pipe.writers - 1 } }
  | .buffer number _ true =>
    { machine with buffers := machine.buffers.modify number Collector.release }
  | _ => machine

def shareAll (descriptors : List (Option Endpoint)) : Machine :=
  descriptors.foldl (fun current slot => slot.elim current current.shareEndpoint) machine

def closeAll (descriptors : List (Option Endpoint)) : Machine :=
  descriptors.foldl (fun current slot => slot.elim current current.closeEndpoint) machine

/-- Make a pipe with some writing endpoints and a reading one, under the next number. -/
def addPipe (writers : Nat) : Machine :=
  { machine with pipes := machine.pipes.add ⟨.empty, writers, 1⟩ }

def addBuffer (retain : Bool) : Machine :=
  { machine with buffers := machine.buffers.add ⟨.new retain, 1⟩ }

def addFlag : Machine :=
  { machine with flags := machine.flags.add false }

def buffer (number : Nat) : StreamBuffer :=
  ((machine.buffers.get? number).map (·.buffer)).getD (.new false)

def openFile (path : String) (mode : FileMode) : Except SystemError Machine :=
  match machine.tree.openFile path mode with
  | .error error => .error error
  | .ok (place, tree) =>
    .ok { machine with tree, files := machine.files.add ⟨place, 0, mode = .append⟩ }

end Machine

namespace Clock

def padded (width value : Nat) : String :=
  let digits := toString value
  String.ofList (List.replicate (width - digits.length) '0') ++ digits

def text (milliseconds : Nat) : String :=
  let seconds := milliseconds / 1000
  "1970-01-01T" ++ padded 2 (seconds / 3600 % 24) ++ ":" ++ padded 2 (seconds / 60 % 60) ++ ":"
    ++ padded 2 (seconds % 60) ++ "." ++ padded 3 (milliseconds % 1000) ++ "000000+00:00"

end Clock

end HybridShell
