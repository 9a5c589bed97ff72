import HybridShell.Pipeline.Basic

/-!
# Waiting for pipelines

While the shell waits, time passes and an interrupt of the session is passed
on to the pipeline.  Waiting is bounded by a number of rounds; when they are
used up, or when nothing can happen any more, there is no answer.
-/

namespace HybridShell

structure LineReader where
  position : Nat
  pending : Bytes
  finished : Bool
  deriving Repr, DecidableEq

namespace LineReader

def new : LineReader :=
  ⟨0, [], false⟩

def lineEnd : UInt8 := 10

def take? (reader : LineReader) : Option (Bytes × LineReader) :=
  if reader.pending.contains lineEnd then
    let line := reader.pending.takeWhile (· ≠ lineEnd)
    some (line, { reader with pending := reader.pending.drop (line.length + 1) })
  else if reader.finished && !reader.pending.isEmpty then
    some (reader.pending, { reader with pending := [] })
  else none

def refill (reader : LineReader) (buffer : StreamBuffer) : LineReader :=
  let (bytes, closed) := buffer.readFrom reader.position
  { position := reader.position + bytes.length
    pending := reader.pending ++ bytes
    finished := closed }

theorem take?_shortens {reader next : LineReader} {line : Bytes}
    (given : reader.take? = some (line, next)) : next.pending.length < reader.pending.length := by
  unfold take? at given
  split at given
  · next present =>
    obtain ⟨rfl, rfl⟩ := given
    have nonempty : reader.pending ≠ [] := by
      intro isEmpty
      simp [isEmpty] at present
    have positive : 0 < reader.pending.length := List.length_pos_iff.mpr nonempty
    simp only [List.length_drop]
    omega
  · split at given
    · next leftover =>
      obtain ⟨rfl, rfl⟩ := given
      simp only [Bool.and_eq_true, Bool.not_eq_true', List.isEmpty_eq_false_iff] at leftover
      simpa using List.length_pos_iff.mpr leftover.2
    · simp at given

def takeAll (reader : LineReader) : List Bytes × LineReader :=
  match _given : reader.take? with
  | none => ([], reader)
  | some (line, next) =>
    let (lines, last) := takeAll next
    (line :: lines, last)
termination_by reader.pending.length
decreasing_by exact take?_shortens _given

end LineReader

structure Waited (α : Type) where
  machine : Machine
  pipeline : Pipeline
  result : α

inductive WaitEnd where
  | finished (code : Int)
  | stopped
  deriving Repr, DecidableEq

namespace Pipeline

/--
Wait for the end, or in the foreground until a stage is stopped, and pass an
interrupt of the session on.  Keys are not part of the machine: nothing asks
the shell itself to stop, so no wait suspends its pipeline.
-/
def waitFor (foreground : Bool) :
    Nat → Machine → Pipeline → Option (Waited (Except ProcessError WaitEnd))
  | 0, _, _ => none
  | rounds + 1, machine, pipeline =>
    let (machine, pipeline) := poll machine pipeline
    if pipeline.isDone then
      if pipeline.interruptPending then
        some ⟨machine, { pipeline with interruptPending := false }, .error .interrupted⟩
      else some ⟨machine, pipeline, .ok (.finished (pipeline.returncode?.getD 0))⟩
    else if foreground && pipeline.isStopped then some ⟨machine, pipeline, .ok .stopped⟩
    else if machine.isRaised Machine.sessionFlag then
      let told := interrupt (machine.setFlag Machine.sessionFlag false) pipeline
      waitFor foreground rounds told { pipeline with interruptPending := true }
    else
      match machine.passTime? with
      | some later => waitFor foreground rounds later pipeline
      | none => none

variable (rounds : Nat)

def wait (machine : Machine) (pipeline : Pipeline) : Option (Waited (Except ProcessError Int)) :=
  (waitFor false rounds machine pipeline).map fun waited =>
    ⟨waited.machine, waited.pipeline,
      match waited.result with
      | .ok (.finished code) => .ok code
      | .ok .stopped => .ok 0
      | .error error => .error error⟩

def raised? (pipeline : Pipeline) : Option ProcessError :=
  if pipeline.raises then pipeline.failure? else none

def returncode (machine : Machine) (pipeline : Pipeline) :
    Option (Waited (Except ProcessError Int)) :=
  (wait rounds machine pipeline).map fun waited =>
    match waited.result, waited.pipeline.raised? with
    | .ok _, some error => { waited with result := .error error }
    | _, _ => waited

def bufferText (machine : Machine) (buffer : Option Nat) : String :=
  (buffer.map fun number => Utf8.decode (machine.buffer number).contents).getD ""

def outputOf (machine : Machine) (pipeline : Pipeline) :
    Option (Waited (Except ProcessError String)) :=
  (returncode rounds machine pipeline).map fun waited =>
    match waited.result with
    | .error error => ⟨waited.machine, waited.pipeline, .error error⟩
    | .ok _ =>
      let text :=
        waited.pipeline.outputText.getD (bufferText waited.machine waited.pipeline.output)
      ⟨waited.machine, { waited.pipeline with outputText := some text }, .ok text⟩

def errorsOf (machine : Machine) (pipeline : Pipeline) :
    Option (Waited (Except ProcessError String)) :=
  (wait rounds machine pipeline).map fun waited =>
    ⟨waited.machine, waited.pipeline,
      waited.result.map fun _ => bufferText waited.machine waited.pipeline.errors⟩

/-- Wait, then say whether the pipeline ended well; an interrupt counts as failure. -/
def succeeded (machine : Machine) (pipeline : Pipeline) : Option (Waited Bool) :=
  (wait rounds machine pipeline).map fun waited =>
    ⟨waited.machine, waited.pipeline,
      match waited.result with
      | .ok code => code == 0
      | .error _ => false⟩

def followLines (buffer : Nat) :
    Nat → Machine → Pipeline → LineReader → Option (Waited (List Bytes))
  | 0, _, _, _ => none
  | rounds + 1, machine, pipeline, reader =>
    let settled := machine.settle
    let (lines, next) := (reader.refill (settled.buffer buffer)).takeAll
    let (polled, pipeline) := poll settled pipeline
    if next.finished then some ⟨polled, pipeline, lines⟩
    else
      match polled.passTime? with
      | none => none
      | some later =>
        (followLines buffer rounds later pipeline next).map fun waited =>
          { waited with result := lines ++ waited.result }

/--
The lines of the captured output, as they arrive.  Without captured output
there are none, but the wait takes place, and an interrupt during it is left
for the next one.
-/
def lines (machine : Machine) (pipeline : Pipeline) : Option (Waited (List String)) :=
  match pipeline.output with
  | some buffer =>
    (followLines buffer rounds machine pipeline .new).map fun waited =>
      ⟨waited.machine, waited.pipeline, waited.result.map Utf8.decode⟩
  | none =>
    (wait rounds machine pipeline).map fun waited =>
      ⟨waited.machine,
        match waited.result with
        | .error .interrupted => { waited.pipeline with interruptPending := true }
        | _ => waited.pipeline,
        []⟩

end Pipeline

end HybridShell
