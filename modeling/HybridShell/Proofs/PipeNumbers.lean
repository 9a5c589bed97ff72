import HybridShell.Pipeline.Basic

/-!
# Numbers of pipes

The machine gives out the numbers of its pipes in order.  Whatever its tasks
do, and whatever is done to them from outside, no number is taken back: a pipe
that is made later has a larger number than every pipe that was there before.
-/

namespace HybridShell

/-- Every pipe of the first machine has its number in the second one. -/
def Machine.PipesStay (before after : Machine) : Prop :=
  before.pipes.size ≤ after.pipes.size

namespace Machine

variable {machine middle after : Machine}

theorem PipesStay.refl (machine : Machine) : machine.PipesStay machine :=
  Nat.le_refl machine.pipes.size

theorem PipesStay.trans (first : machine.PipesStay middle) (second : middle.PipesStay after) :
    machine.PipesStay after :=
  Nat.le_trans first second

theorem PipesStay.of_size_eq (same : after.pipes.size = machine.pipes.size) :
    machine.PipesStay after :=
  Nat.le_of_eq same.symm

/-- What each step keeps, all steps together keep. -/
theorem PipesStay.foldl {α : Type} {step : Machine → α → Machine}
    (each : ∀ current item, PipesStay current (step current item)) (items : List α)
    (machine : Machine) : machine.PipesStay (items.foldl step machine) := by
  induction items generalizing machine with
  | nil => exact .refl machine
  | cons item rest ih => exact (each machine item).trans (ih (step machine item))

theorem pipesStay_setFlag (machine : Machine) (flag : Nat) (raised : Bool) :
    machine.PipesStay (machine.setFlag flag raised) :=
  .refl machine

theorem pipesStay_complain (machine : Machine) (bytes : Bytes) :
    machine.PipesStay (machine.complain bytes) :=
  .refl machine

/-! ### Streams -/

theorem pipes_size_readFrom {portion : Portion} {endpoint : Endpoint} {chunk : Bytes}
    (reads : machine.readFrom portion endpoint = .bytes chunk after) :
    after.pipes.size = machine.pipes.size := by
  unfold readFrom at reads
  dsimp only at reads
  split at reads
  · grind
  · grind
  · split at reads
    · cases reads
    · split at reads
      · cases reads
        exact machine.pipes.size_set _ _
      · grind
  · cases reads

theorem pipes_size_writeTo (machine : Machine) (bytes : Bytes) (endpoint : Endpoint) :
    (machine.writeTo bytes endpoint).pipes.size = machine.pipes.size := by
  unfold writeTo
  split
  · rfl
  · rfl
  · split <;> rfl
  · exact machine.pipes.size_modify _ _
  · split <;> rfl
  · rfl

theorem pipes_size_shareEndpoint (machine : Machine) (endpoint : Endpoint) :
    (machine.shareEndpoint endpoint).pipes.size = machine.pipes.size := by
  unfold shareEndpoint
  split
  · exact machine.pipes.size_modify _ _
  · exact machine.pipes.size_modify _ _
  · rfl
  · rfl

theorem pipes_size_closeEndpoint (machine : Machine) (endpoint : Endpoint) :
    (machine.closeEndpoint endpoint).pipes.size = machine.pipes.size := by
  unfold closeEndpoint
  split
  · exact machine.pipes.size_modify _ _
  · exact machine.pipes.size_modify _ _
  · rfl
  · rfl

theorem pipesStay_shareAll (machine : Machine) (descriptors : List (Option Endpoint)) :
    machine.PipesStay (machine.shareAll descriptors) := by
  refine .foldl (fun current slot => ?_) descriptors machine
  cases slot with
  | none => exact .refl current
  | some endpoint => exact .of_size_eq (pipes_size_shareEndpoint current endpoint)

theorem pipesStay_closeAll (machine : Machine) (descriptors : List (Option Endpoint)) :
    machine.PipesStay (machine.closeAll descriptors) := by
  refine .foldl (fun current slot => ?_) descriptors machine
  cases slot with
  | none => exact .refl current
  | some endpoint => exact .of_size_eq (pipes_size_closeEndpoint current endpoint)

theorem pipes_size_addPipe (machine : Machine) (writers : Nat) :
    (machine.addPipe writers).pipes.size = machine.pipes.size + 1 :=
  machine.pipes.size_add _

theorem pipesStay_openFile {path : String} {mode : FileMode}
    (opens : machine.openFile path mode = .ok after) : machine.PipesStay after := by
  unfold openFile at opens
  split at opens
  · cases opens
  · cases opens
    exact .refl machine

/-! ### Tasks -/

theorem pipesStay_suffer (machine : Machine) (task : Task) (program : Program Outcome)
    (signal : Int) : machine.PipesStay (machine.suffer task program signal).machine := by
  unfold suffer
  split
  · exact .refl machine
  · split
    · exact .refl machine
    · split
      · exact .refl machine
      · exact .refl machine
      · exact .refl machine
      · exact pipesStay_closeAll machine task.descriptors

theorem pipesStay_sendSignal (machine : Machine) (number : Nat) (signal : Int) :
    machine.PipesStay (machine.sendSignal number signal) := by
  unfold sendSignal
  split
  · exact .refl machine
  · split
    · exact pipesStay_suffer machine _ _ signal
    · exact .refl machine

/-- A program makes pipes and takes none back, however it goes on. -/
theorem pipesStay_runProgram (number : Nat) (machine : Machine) (task : Task)
    (program : Program Outcome) :
    machine.PipesStay (runProgram number machine task program).machine := by
  induction program generalizing machine task with rw [runProgram]
  | done outcome => exact pipesStay_closeAll machine task.descriptors
  | halt outcome => exact pipesStay_closeAll machine task.descriptors
  | read source portion next ih =>
    split
    · exact .refl machine
    · exact ih none machine task
    · next chunk after reads =>
      exact (PipesStay.of_size_eq (pipes_size_readFrom reads)).trans (ih _ after task)
  | write sink bytes next ih =>
    split
    · exact (PipesStay.of_size_eq (pipes_size_writeTo machine bytes _)).trans (ih () _ task)
    · exact .refl machine
    · split
      · exact pipesStay_closeAll machine task.descriptors
      · exact ih () machine task
  | openFile path mode next ih =>
    split
    · exact ih _ machine task
    · next after opens => exact (pipesStay_openFile opens).trans (ih _ after _)
  | makePipe next ih =>
    have made : machine.PipesStay (machine.addPipe 1) := by
      have more := machine.pipes_size_addPipe 1
      exact Nat.le_of_succ_le (Nat.le_of_eq more.symm)
    exact made.trans (ih _ _ _ _)
  | close descriptor next ih =>
    exact (PipesStay.of_size_eq (pipes_size_closeEndpoint machine _)).trans (ih () _ _)
  | adopt streams next ih =>
    exact (pipesStay_shareAll machine _).trans ((pipesStay_closeAll _ _).trans (ih () _ _))
  | inspect path next ih => exact ih _ machine task
  | inspectStream source next ih => exact ih _ machine task
  | wouldMeet source sink next ih => exact ih _ machine task
  | listNames path next ih => exact ih _ machine task
  | load directory path next ih => exact ih _ machine task
  | fork next ih => exact pipesStay_shareAll machine task.descriptors
  | await process next ih =>
    split
    · exact ih _ machine task
    · exact .refl machine
  | sendSignal process signal next ih =>
    split
    · exact ih false machine task
    · split
      · exact ih true machine task
      · split
        · exact pipesStay_suffer machine _ _ signal
        · exact (pipesStay_sendSignal machine _ signal).trans (ih true _ task)
  | catchSignals caught ignored next ih => exact ih () machine _
  | takeSignals next ih => exact ih _ machine _
  | sleep milliseconds next ih => exact .refl machine
  | stop next ih => exact .refl machine
  | checkInterrupt next ih => exact ih _ machine task
  | awaitInterrupt next ih =>
    split
    · exact ih () machine task
    · exact .refl machine
  | raiseInterrupt next ih => exact ih () (machine.setFlag sessionFlag true) task

theorem pipesStay_advanceTask (machine : Machine) (number : Nat) :
    machine.PipesStay (machine.advanceTask number) := by
  unfold advanceTask
  split
  · exact .refl machine
  · split
    · exact .refl machine
    · exact pipesStay_runProgram number machine _ _

theorem pipesStay_settleWithin (turns : Nat) (machine : Machine) :
    machine.PipesStay (settleWithin turns machine) := by
  induction turns generalizing machine with
  | zero => exact .refl machine
  | succ turns ih =>
    have turn : machine.PipesStay machine.takeTurns := .foldl pipesStay_advanceTask _ machine
    rw [settleWithin]
    split
    · exact turn.trans (ih machine.takeTurns)
    · exact .refl machine

theorem pipesStay_settle (machine : Machine) : machine.PipesStay machine.settle :=
  pipesStay_settleWithin manyTurns machine

theorem pipesStay_spawn (machine : Machine) (program : Program Outcome)
    (descriptors : List Endpoint) (flag : Nat) (isProcess : Bool) :
    machine.PipesStay (machine.spawn program descriptors flag isProcess) :=
  pipesStay_settle { machine with tasks := machine.tasks.add _ }

theorem pipesStay_passTime? (passes : machine.passTime? = some after) :
    machine.PipesStay after := by
  obtain ⟨wake, _, rfl⟩ := Option.map_eq_some_iff.mp passes
  exact pipesStay_settle { machine with clock := max machine.clock wake }

theorem pipesStay_finishTask {number rounds : Nat} {outcome : Outcome}
    (finishes : finishTask number rounds machine = some (outcome, after)) :
    machine.PipesStay after := by
  induction rounds generalizing machine with
  | zero => cases finishes
  | succ rounds ih =>
    rw [finishTask] at finishes
    split at finishes
    · cases finishes
      exact .refl after
    · obtain ⟨later, passes, finishes⟩ := Option.bind_eq_some_iff.mp finishes
      exact (pipesStay_passTime? passes).trans (ih finishes)

end Machine

/-! ### Pipelines -/

namespace Pipeline

variable (machine : Machine)

theorem pipesStay_poll (pipeline : Pipeline) : machine.PipesStay (poll machine pipeline).1 := by
  have settles := machine.pipesStay_settle
  unfold poll
  split
  · exact .refl machine
  · dsimp only
    split
    · split <;> exact settles
    · exact settles

theorem pipesStay_sendAll (grouped : Bool) (signal : Int) (stages : List Stage) :
    machine.PipesStay (sendAll machine grouped signal stages) := by
  refine .foldl (fun current stage => ?_) stages machine
  split
  · exact .refl current
  · split
    · exact .foldl (fun current task => current.pipesStay_sendSignal task signal) _ current
    · split
      · exact current.pipesStay_sendSignal _ signal
      · exact .refl current

theorem pipesStay_interrupt (pipeline : Pipeline) :
    machine.PipesStay (interrupt machine pipeline) :=
  pipesStay_sendAll (machine.setFlag pipeline.flag true) _ _ _

theorem pipesStay_terminate (pipeline : Pipeline) :
    machine.PipesStay (terminate machine pipeline) := by
  have asked := pipesStay_sendAll (machine.setFlag pipeline.flag true) pipeline.group.isSome
    Signal.terminate pipeline.stages
  unfold terminate
  split
  · exact .refl machine
  · exact asked.trans (pipesStay_sendAll _ _ _ _)

end Pipeline

end HybridShell
