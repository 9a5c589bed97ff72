import HybridShell.Proofs.Layers

/-!
# How stages are wired

The stages of a pipeline start from left to right, and each is given its
streams when it is about to start.  A stage whose output is not redirected
makes one pipe to the next stage: it alone writes into the pipe, and the next
stage alone reads from it, unless a file was named for that stage.

A stage may run code, which starts pipelines of its own before the next stage
starts.  Numbers of pipes are never taken back, so none of those pipes is
mistaken for one between stages.
-/

namespace HybridShell

open WiringContext

/-! ### Pipes of a shell -/

def Shell.PipesStay (before after : Shell) : Prop :=
  before.machine.PipesStay after.machine

instance : AllowsCode Shell.PipesStay where
  refl shell := .refl shell.machine
  trans _ _ _ first second := Machine.PipesStay.trans first second
  outside _ _ pipes _ _ := pipes
  pipelines _ _ pipes _ _ := pipes
  surroundings shell _ _ _ _ _ := .refl shell.machine
  assignment shell name value := by
    unfold Shell.setVariable
    split <;> exact .refl shell.machine
  inFrame name locals runs before after result answer := by
    rw [Run.inFrame_run] at answer
    split at answer
    · cases answer
      exact .refl before.machine
    · obtain ⟨middle, ran, rfl⟩ := Run.andFinally_eq_some_iff.mp answer
      have stay := runs ran
      exact stay
  outsideCalls runs before after result answer := by
    obtain ⟨middle, ran, rfl⟩ := Run.andFinally_eq_some_iff.mp answer
    have stay := runs ran
    exact stay

namespace Assembly

variable {assembly : Assembly} {plan : StagePlan} {machine : Machine}

variable {number : Nat}

end Assembly

/-! ### Plans -/

namespace StageSpec

/-- The output of the stage goes to a next one. -/
def Joins (spec : StageSpec) (isLast : Bool) : Prop :=
  isLast = false ∧ spec.output = .standard

instance (spec : StageSpec) (isLast : Bool) : Decidable (spec.Joins isLast) :=
  inferInstanceAs (Decidable (_ ∧ _))

def reads (spec : StageSpec) (offered : Endpoint) : Endpoint :=
  (spec.input.map .file).getD offered

end StageSpec

variable {plan : StagePlan} {runner : NestedRunner}

namespace WiringContext

variable (context : WiringContext)

end WiringContext

/-! ### Records of the stages that start -/

/-- A stage that is about to start. -/
structure Opening where
  plan : StagePlan
  streams : StageStreams
  /-- The machine before the streams were opened. -/
  before : Machine
  /-- The machine after the streams were opened. -/
  after : Machine

namespace Opening

/-- The number of the pipe that the stage makes, if it makes one. -/
def pipe (opening : Opening) : Nat :=
  opening.before.pipes.size

end Opening

/-- Start stages from left to right, and tell which streams each of them was given. -/
def Assembly.startRecorded (rounds : Nat) (runner : NestedRunner) (grouped : Bool) :
    Assembly → List (StageSpec × StagePlan) →
      Action (List Opening × Except ProcessError Assembly)
  | assembly, [] => return ([], .ok assembly)
  | assembly, (spec, plan) :: rest => do
    let machine := (← get).machine
    let (streams, opened) := assembly.openStreams plan machine
    Action.modifyMachine fun _ => opened
    let observed := observation? plan streams opened
    match ← spec.startStage rounds runner assembly plan streams with
    | .error error =>
      Action.modifyMachine assembly.abort
      return ([⟨plan, streams, machine, opened⟩], .error error)
    | .ok stage =>
      let (others, started) ← startRecorded rounds runner grouped
        (assembly.push grouped (streams.pipe? machine.pipes.size) observed stage) rest
      return (⟨plan, streams, machine, opened⟩ :: others, started)

def Pipeline.openings (rounds : Nat) (settings : Settings) (host : HostStreams)
    (runner : NestedRunner) (specs : List StageSpec) : Action (List Opening) := do
  match specs.getLast? with
  | none => return []
  | some last =>
    let context := wiring (← Action.session) settings host last
    let prepared ← prepare last
    let recorded ← Assembly.startRecorded rounds runner (context.jobControl || last.background)
      prepared (specs.zip (context.plan specs))
    return recorded.1

structure Opening.Opens (opening : Opening) (spec : StageSpec) (joins : Prop) : Prop where
  /-- One pipe is made, with as many writers as the stage has streams into it, and one reader. -/
  makes : joins →
    opening.after.pipes.size = opening.pipe + 1 ∧
      opening.after.pipes.get? opening.pipe =
        some ⟨.empty, if spec.error = .merged then 2 else 1, 1⟩
  makesNone : ¬ joins → opening.after.pipes.size = opening.pipe
  output {number : Nat} :
    opening.streams.output = .pipeWriter number ↔ joins ∧ number = opening.pipe
  error {number : Nat} :
    opening.streams.error = .pipeWriter number ↔
      (joins ∧ spec.error = .merged) ∧ number = opening.pipe

/--
Some of the first stages are wired: the first one finds some stage before it
and is offered an input, and each later one is offered what the stage before it
gives.
-/
structure Wired (context : WiringContext) (before : Predecessor) (offered : Endpoint)
    (specs : List StageSpec) (openings : List Opening) : Prop where
  length_le : openings.length ≤ specs.length
  first {spec : StageSpec} {opening : Opening} (isFirst : specs[0]? = some spec)
    (opens : openings[0]? = some opening) :
    opening.plan.input = context.inputPlan spec.input before ∧
      opening.streams.input = spec.reads offered
  later {place : Nat} {spec next : StageSpec} {opening following : Opening}
    (isBefore : specs[place]? = some spec) (isNext : specs[place + 1]? = some next)
    (opens : openings[place]? = some opening)
    (follows : openings[place + 1]? = some following) :
    following.plan.input =
        context.inputPlan next.input
          (if spec.output = .standard then .piped else .redirected) ∧
      following.streams.input =
        next.reads (if spec.output = .standard then .pipeReader opening.pipe else .null)
  opens {place : Nat} {spec : StageSpec} {opening : Opening} (isStage : specs[place]? = some spec)
    (opens : openings[place]? = some opening) :
    opening.Opens spec (place + 1 < specs.length ∧ spec.output = .standard)
  grows {place later : Nat} {opening following : Opening} (isLater : place < later)
    (opens : openings[place]? = some opening) (follows : openings[later]? = some following) :
    opening.after.PipesStay following.before

namespace Wired

variable {context : WiringContext} {before : Predecessor} {offered : Endpoint} {spec : StageSpec}
  {specs : List StageSpec} {opening : Opening} {others : List Opening}

theorem nil (context : WiringContext) (before : Predecessor) (offered : Endpoint)
    (specs : List StageSpec) : Wired context before offered specs [] where
  length_le := Nat.zero_le _
  first _ opens := by cases opens
  later _ _ opens _ := by cases opens
  opens _ opens := by cases opens
  grows _ opens _ := by cases opens

theorem cons (planned : opening.plan.input = context.inputPlan spec.input before)
    (reads : opening.streams.input = spec.reads offered)
    (opens : opening.Opens spec (spec.Joins specs.isEmpty))
    (grows : ∀ other ∈ others, opening.after.PipesStay other.before)
    (rest : Wired context (if spec.Joins specs.isEmpty then .piped else .redirected)
      (if spec.Joins specs.isEmpty then .pipeReader opening.pipe else .null) specs others) :
    Wired context before offered (spec :: specs) (opening :: others) where
  length_le := Nat.succ_le_succ rest.length_le
  first isFirst isOpening := by simp_all
  later {place} _ _ _ _ isBefore isNext isOpening follows := by
    cases place with
    | zero =>
      have joins : spec.Joins specs.isEmpty ↔ spec.output = .standard := by
        cases specs with
        | nil => cases isNext
        | cons _ _ => exact ⟨And.right, fun standard => ⟨rfl, standard⟩⟩
      have found := rest.first isNext follows
      simp_all
    | succ place => exact rest.later isBefore isNext isOpening follows
  opens {place} _ _ isStage isOpening := by
    cases place with
    | zero =>
      have joins : spec.Joins specs.isEmpty ↔
          0 + 1 < (spec :: specs).length ∧ spec.output = .standard := by
        cases specs <;> simp [StageSpec.Joins]
      grind
    | succ place =>
      have joins : place + 1 + 1 < (spec :: specs).length ↔ place + 1 < specs.length :=
        Nat.succ_lt_succ_iff
      rw [joins]
      exact rest.opens isStage isOpening
  grows {place later} _ _ isLater isOpening follows := by
    cases later with
    | zero => exact absurd isLater (Nat.not_lt_zero place)
    | succ later =>
      cases place with
      | zero => grind
      | succ place => exact rest.grows (Nat.lt_of_succ_lt_succ isLater) isOpening follows

end Wired

namespace Assembly

variable {assembly : Assembly} {context : WiringContext} {spec : StageSpec}

end Assembly

def WiringContext.offered (context : WiringContext) : Endpoint :=
  if context.background && !context.jobControl then .null
  else context.host.input.getD .terminalInput

namespace Pipeline

end Pipeline

namespace Wired

variable {context : WiringContext} {specs : List StageSpec} {openings : List Opening}
  {before : Predecessor} {offered : Endpoint}

variable {place : Nat}

end Wired

variable {rounds depth : Nat} {settings : Settings} {host : HostStreams} {specs : List StageSpec}
  {last : StageSpec} {before after : Shell} {result : Except ProcessError Nat}

end HybridShell
