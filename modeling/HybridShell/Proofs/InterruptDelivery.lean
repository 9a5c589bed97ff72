import HybridShell.Evaluation.Statement
import HybridShell.Proofs.OutsideActions

/-!
# Interrupts reach the program

A wait takes an interrupt when it lowers the flag of the session, which makes
the interrupt pending in the pipeline, or when it reports a pending one.  What
is asked of a handle then fails with the interrupt or leaves it pending, with
two exceptions: the truth and the text of a handle are given all the same, and
the interrupt is lost.
-/

namespace HybridShell

namespace Pipeline

/-! ### Waits that take an interrupt -/

/-- A wait for the pipeline lowers the flag of the session or reports a pending interrupt. -/
inductive TakesInterrupt (foreground : Bool) : Machine → Pipeline → Prop
  | reports (done : (poll machine pipeline).2.isDone = true)
      (pending : (poll machine pipeline).2.interruptPending = true) :
      TakesInterrupt foreground machine pipeline
  | lowers (running : (poll machine pipeline).2.isDone = false)
      (moving : (foreground && (poll machine pipeline).2.isStopped) = false)
      (raised : (poll machine pipeline).1.isRaised Machine.sessionFlag = true) :
      TakesInterrupt foreground machine pipeline
  | later (running : (poll machine pipeline).2.isDone = false)
      (moving : (foreground && (poll machine pipeline).2.isStopped) = false)
      (quiet : (poll machine pipeline).1.isRaised Machine.sessionFlag = false)
      (passes : (poll machine pipeline).1.passTime? = some next)
      (takes : TakesInterrupt foreground next (poll machine pipeline).2) :
      TakesInterrupt foreground machine pipeline

theorem interruptPending_poll {machine : Machine} {pipeline : Pipeline}
    (pending : pipeline.interruptPending = true) :
    (poll machine pipeline).2.interruptPending = true := by
  unfold poll
  grind

def Delivers (waited : Waited (Except ProcessError WaitEnd)) : Prop :=
  waited.result = .error .interrupted ∧ waited.pipeline.interruptPending = false ∨
    waited.result = .ok .stopped ∧ waited.pipeline.interruptPending = true

variable {foreground : Bool} {rounds : Nat} {machine : Machine} {pipeline : Pipeline}

variable {waited : Waited (Except ProcessError WaitEnd)}

theorem delivers_of_pending (pending : pipeline.interruptPending = true)
    (answer : waitFor foreground rounds machine pipeline = some waited) : Delivers waited := by
  induction rounds generalizing machine pipeline with
  | zero => cases answer
  | succ rounds ih =>
    have still : (poll machine pipeline).2.interruptPending = true :=
      interruptPending_poll pending
    rw [waitFor_succ] at answer
    dsimp only at answer
    split at answer
    · cases answer
      exact .inl ⟨rfl, rfl⟩
    · split at answer
      · cases answer
        exact .inr ⟨rfl, still⟩
      · split at answer
        · exact ih rfl answer
        · obtain ⟨next, _, answer⟩ := Option.bind_eq_some_iff.mp answer
          exact ih still answer

theorem delivers_of_takes (takes : TakesInterrupt foreground machine pipeline)
    (answer : waitFor foreground rounds machine pipeline = some waited) : Delivers waited := by
  induction takes generalizing rounds with
  | @reports machine pipeline done pending =>
    cases rounds with
    | zero => cases answer
    | succ rounds =>
      rw [waitFor_succ] at answer
      rw [if_pos done, if_pos pending] at answer
      cases answer
      exact .inl ⟨rfl, rfl⟩
  | @lowers machine pipeline running moving raised =>
    cases rounds with
    | zero => cases answer
    | succ rounds =>
      rw [waitFor_succ] at answer
      rw [if_neg (Bool.eq_false_iff.mp running), if_neg (Bool.eq_false_iff.mp moving),
        if_pos raised] at answer
      exact delivers_of_pending rfl answer
  | @later machine next pipeline running moving quiet passes takes ih =>
    cases rounds with
    | zero => cases answer
    | succ rounds =>
      rw [waitFor_succ] at answer
      grind

def IsDue (foreground : Bool) (machine : Machine) (pipeline : Pipeline) : Prop :=
  ∀ ⦃rounds : Nat⦄ ⦃waited : Waited (Except ProcessError WaitEnd)⦄,
    waitFor foreground rounds machine pipeline = some waited → Delivers waited

theorem isDue_of_pending (pending : pipeline.interruptPending = true) :
    IsDue foreground machine pipeline :=
  fun _ _ answer => delivers_of_pending pending answer

theorem isDue_of_takes (takes : TakesInterrupt foreground machine pipeline) :
    IsDue foreground machine pipeline :=
  fun _ _ answer => delivers_of_takes takes answer

theorem waitFor_ne_stopped (answer : waitFor false rounds machine pipeline = some waited) :
    waited.result ≠ .ok .stopped := by
  rcases waitFor_cases answer with ⟨_, interrupted | finished⟩ | ⟨_, _, foreground⟩
  · rw [interrupted]
    nofun
  · rw [finished]
    nofun
  · cases foreground

variable {waited : Waited (Except ProcessError Int)}

theorem wait_of_isDue (due : IsDue false machine pipeline)
    (answer : wait rounds machine pipeline = some waited) :
    waited.result = .error .interrupted ∧ waited.pipeline.interruptPending = false := by
  obtain ⟨found, waits, rfl⟩ := Option.map_eq_some_iff.mp answer
  rcases due waits with ⟨interrupted, cleared⟩ | ⟨stopped, _⟩
  · exact ⟨by rw [interrupted], cleared⟩
  · exact absurd stopped (waitFor_ne_stopped waits)

theorem returncode_of_isDue (due : IsDue false machine pipeline)
    (answer : returncode rounds machine pipeline = some waited) :
    waited.result = .error .interrupted ∧ waited.pipeline.interruptPending = false := by
  obtain ⟨found, waits, rfl⟩ := Option.map_eq_some_iff.mp answer
  obtain ⟨interrupted, cleared⟩ := wait_of_isDue due waits
  simp_all

theorem outputOf_of_isDue {waited : Waited (Except ProcessError String)}
    (due : IsDue false machine pipeline)
    (answer : outputOf rounds machine pipeline = some waited) :
    waited.result = .error .interrupted ∧ waited.pipeline.interruptPending = false := by
  obtain ⟨found, waits, rfl⟩ := Option.map_eq_some_iff.mp answer
  obtain ⟨interrupted, cleared⟩ := returncode_of_isDue due waits
  simp_all

theorem errorsOf_of_isDue {waited : Waited (Except ProcessError String)}
    (due : IsDue false machine pipeline)
    (answer : errorsOf rounds machine pipeline = some waited) :
    waited.result = .error .interrupted := by
  obtain ⟨found, waits, rfl⟩ := Option.map_eq_some_iff.mp answer
  obtain ⟨interrupted, cleared⟩ := wait_of_isDue due waits
  simp only [interrupted]
  rfl

theorem succeeded_of_isDue {waited : Waited Bool} (due : IsDue false machine pipeline)
    (answer : succeeded rounds machine pipeline = some waited) :
    waited.pipeline.interruptPending = false := by
  obtain ⟨found, waits, rfl⟩ := Option.map_eq_some_iff.mp answer
  exact (wait_of_isDue due waits).2

theorem lines_of_isDue {waited : Waited (List String)} (uncaptured : pipeline.output = none)
    (due : IsDue false machine pipeline) (answer : lines rounds machine pipeline = some waited) :
    waited.pipeline.interruptPending = true := by
  rw [lines, uncaptured] at answer
  obtain ⟨found, waits, rfl⟩ := Option.map_eq_some_iff.mp answer
  obtain ⟨interrupted, _⟩ := wait_of_isDue due waits
  simp only [interrupted]

theorem followLines_of_pending {buffer : Nat} {reader : LineReader}
    {waited : Waited (List Bytes)} (pending : pipeline.interruptPending = true)
    (answer : followLines buffer rounds machine pipeline reader = some waited) :
    waited.pipeline.interruptPending = true := by
  induction rounds generalizing machine pipeline reader waited with
  | zero => cases answer
  | succ rounds ih =>
    have still : (poll machine.settle pipeline).2.interruptPending = true :=
      interruptPending_poll pending
    rw [followLines] at answer
    dsimp only at answer
    split at answer
    · grind
    · split at answer
      · cases answer
      · obtain ⟨later, follows, rfl⟩ := Option.map_eq_some_iff.mp answer
        grind

theorem lines_of_pending {waited : Waited (List String)}
    (pending : pipeline.interruptPending = true)
    (answer : lines rounds machine pipeline = some waited) :
    waited.pipeline.interruptPending = true := by
  cases captured : pipeline.output with
  | none => exact lines_of_isDue captured (isDue_of_pending pending) answer
  | some buffer =>
    rw [lines, captured] at answer
    obtain ⟨found, follows, rfl⟩ := Option.map_eq_some_iff.mp answer
    exact followLines_of_pending pending follows

end Pipeline

/-! ### Steps of a program -/

open Pipeline (TakesInterrupt IsDue)

/-- The next wait for the pipeline of a number has an interrupt to deliver. -/
def Shell.IsPending (shell : Shell) (number : Nat) : Prop :=
  ∃ pipeline, shell.pipeline? number = some pipeline ∧ pipeline.interruptPending = true

/-- What can be asked of a handle, when the answer makes the program wait. -/
inductive Question where
  | truth
  | text
  | output
  | errors
  | returncode
  | lines
  | signal
  | endTime
  | wait
  | check
  deriving DecidableEq

/-- What a program writes to ask something of a handle. -/
def Question.expression (base : Expr) : Question → Expr
  | .truth => .call (.name "bool") [base]
  | .text => .call (.name "str") [base]
  | .output => .member base "output"
  | .errors => .member base "errors"
  | .returncode => .member base "returncode"
  | .lines => .member base "lines"
  | .signal => .member base "signal"
  | .endTime => .member base "endtime"
  | .wait => .call (.member base "wait") []
  | .check => .call (.member base "check") []

inductive WaitingStep where
  | ask (question : Question) (handle : PipelineHandle)
  /-- Wait for a command in the foreground. -/
  | command (number : Nat)
  /-- Look for an interrupt after a statement. -/
  | statementEnd

namespace WaitingStep

def run (rounds : Nat) : WaitingStep → Run Value
  | ask .truth handle => return .bool (← Run.truthy rounds (.pipeline handle))
  | ask .text handle => return .str (← Run.plainText rounds (.pipeline handle))
  | ask .output handle => Handle.property rounds handle "output"
  | ask .errors handle => Handle.property rounds handle "errors"
  | ask .returncode handle => Handle.property rounds handle "returncode"
  | ask .lines handle => Handle.property rounds handle "lines"
  | ask .signal handle => Handle.property rounds handle "signal"
  | ask .endTime handle => Handle.property rounds handle "endtime"
  | ask .wait handle => Handle.method rounds handle "wait"
  | ask .check handle => Handle.method rounds handle "check"
  | command number => do
    return Handle.number (← Run.ofProcess (JobControl.waitForeground rounds number))
  | statementEnd => do
    Run.checkSignals
    return .none

def number? : WaitingStep → Option Nat
  | ask _ handle => some handle.number
  | command number => some number
  | statementEnd => none

def Takes (shell : Shell) : WaitingStep → Prop
  | ask question handle =>
    ∃ pipeline, shell.pipeline? handle.number = some pipeline ∧
      (question = .lines → pipeline.output = none) ∧
      TakesInterrupt false shell.machine pipeline
  | command number =>
    ∃ pipeline, shell.pipeline? number = some pipeline ∧
      TakesInterrupt true shell.machine pipeline
  | statementEnd =>
    shell.session.exitRequest = none ∧ shell.machine.isRaised Machine.sessionFlag = true

/-- The interrupt is left for the next wait for the same pipeline. -/
def LeavesPending (shell : Shell) (step : WaitingStep) : Prop :=
  ∃ number ∈ step.number?, shell.IsPending number

/-- The truth and the text of a handle are given whatever the wait reports. -/
def GivesAnyway (step : WaitingStep) : Prop :=
  ∃ handle, step = ask .truth handle ∨ step = ask .text handle

end WaitingStep

/-! ### What stays pending -/

def Shell.KeepsPending (number : Nat) (before after : Shell) : Prop :=
  before.IsPending number → after.IsPending number

instance (number : Nat) : AllowsOutside (Shell.KeepsPending number) where
  refl _ pending := pending
  trans _ _ _ first second pending := second (first pending)
  outside _ _ _ _ _ pending := pending

variable {α β : Type} {handle : PipelineHandle} {before after : Shell} {result : Except EvalError β}
  {pipeline : Pipeline}

theorem Action.keepsPending_withPipeline {number other : Nat}
    {wait : Machine → Pipeline → Option (Waited α)}
    (waits : other = number → ∀ {machine pipeline waited}, wait machine pipeline = some waited →
      pipeline.interruptPending = true → waited.pipeline.interruptPending = true) :
    Keeps (Shell.KeepsPending number) (withPipeline other wait) := by
  rintro before after result answer ⟨pipeline, found, pending⟩
  obtain ⟨polled, waited, same, ends, _, rfl⟩ := withPipeline_eq_some_iff.mp answer
  by_cases distinct : other = number
  · rw [distinct] at same ⊢
    rw [found] at same
    cases same
    exact ⟨waited.pipeline, pipeline?_after found _, waits distinct ends pending⟩
  · exact ⟨pipeline, (Store.get?_set_of_ne _ _ distinct).trans found, pending⟩

/-! ### Steps that take an interrupt -/

/-- A wait that fails with the interrupt it takes ends the run. -/
theorem Handle.waiting_bind_of_reports
    {wait : Machine → Pipeline → Option (Waited (Except ProcessError α))} {next : α → Run β}
    (reports : ∀ {waited}, wait before.machine pipeline = some waited →
      waited.result = .error .interrupted) (found : before.pipeline? handle.number = some pipeline)
    (answer : (Handle.waiting handle wait >>= next) before = some (result, after)) :
    result = .error (.process .interrupted) := by
  have fails {given : Except EvalError α} {middle : Shell}
      (waits : Handle.waiting handle wait before = some (given, middle)) :
      given = .error (.process .interrupted) := by
    obtain ⟨outcome, acts, rfl⟩ := Run.ofProcess_eq_some_iff.mp waits
    obtain ⟨other, waited, same, ends, rfl, rfl⟩ := Action.withPipeline_eq_some_iff.mp acts
    rw [found] at same
    cases same
    rw [reports ends]
    rfl
  rcases Run.bind_eq_some_iff.mp answer with ⟨error, waits, rfl⟩ | ⟨value, middle, waits, _⟩
  · cases fails waits
    rfl
  · cases fails waits

theorem Handle.ended_bind_of_isDue {rounds : Nat} {next : Pipeline → Run β}
    (due : IsDue false before.machine pipeline)
    (found : before.pipeline? handle.number = some pipeline)
    (answer : (Handle.ended rounds handle >>= next) before = some (result, after)) :
    result = .error (.process .interrupted) := by
  have fails {given : Except EvalError Pipeline} {middle : Shell}
      (ends : Handle.ended rounds handle before = some (given, middle)) :
      given = .error (.process .interrupted) :=
    Handle.waiting_bind_of_reports (fun waits => (Pipeline.wait_of_isDue due waits).1) found ends
  rcases Run.bind_eq_some_iff.mp answer with ⟨error, ends, rfl⟩ | ⟨value, middle, ends, _⟩
  · cases fails ends
    rfl
  · cases fails ends

namespace WaitingStep

variable {rounds : Nat} {before after : Shell} {result : Except EvalError Value}
  {handle : PipelineHandle} {pipeline : Pipeline}

variable {number : Nat} {step : WaitingStep}

theorem waiting_of_found {α : Type} {wait : Machine → Pipeline → Option (Waited α)}
    {given : Except EvalError α} (found : before.pipeline? number = some pipeline)
    (waits : Run.waiting number wait before = some (given, after)) :
    ∃ waited, wait before.machine pipeline = some waited ∧ given = .ok waited.result ∧
      after.pipeline? number = some waited.pipeline := by
  obtain ⟨value, acts, rfl⟩ := Run.waiting_eq_some_iff.mp waits
  obtain ⟨other, waited, same, ends, rfl, rfl⟩ := Action.withPipeline_eq_some_iff.mp acts
  rw [found] at same
  cases same
  exact ⟨waited, ends, rfl, Action.pipeline?_after found _⟩

variable {question : Question} {steps : List WaitingStep}

theorem leavesPending_iff (found : after.pipeline? handle.number = some pipeline) :
    (ask question handle).LeavesPending after ↔ pipeline.interruptPending = true := by
  constructor
  · rintro ⟨number, ⟨⟩, other, same, pending⟩
    simp_all
  · intro pending
    exact ⟨handle.number, rfl, pipeline, found, pending⟩

theorem truth_of_isDue (due : IsDue false before.machine pipeline)
    (found : before.pipeline? handle.number = some pipeline)
    (answer : (ask .truth handle).run rounds before = some (result, after)) :
    (∃ value, result = .ok value) ∧ ¬ (ask .truth handle).LeavesPending after := by
  rcases Run.bind_eq_some_iff.mp answer with ⟨error, waits, _⟩ | ⟨truth, middle, waits, ends⟩
  · obtain ⟨waited, _, same, _⟩ := waiting_of_found found waits
    cases same
  · obtain ⟨waited, succeeded, _, left⟩ := waiting_of_found found waits
    cases ends
    refine ⟨⟨_, rfl⟩, ?_⟩
    rw [leavesPending_iff left, Pipeline.succeeded_of_isDue due succeeded]
    exact Bool.false_ne_true

theorem text_of_isDue (due : IsDue false before.machine pipeline)
    (found : before.pipeline? handle.number = some pipeline)
    (answer : (ask .text handle).run rounds before = some (result, after)) :
    (∃ value, result = .ok value) ∧ ¬ (ask .text handle).LeavesPending after := by
  have plain {given : Except EvalError String} {middle : Shell}
      (reads : Run.plainText rounds (.pipeline handle) before = some (given, middle)) :
      given = .ok "" ∧ ¬ (ask .text handle).LeavesPending middle := by
    rcases Run.bind_eq_some_iff.mp reads with ⟨error, waits, _⟩ | ⟨output, between, waits, ends⟩
    · obtain ⟨waited, _, same, _⟩ := waiting_of_found found waits
      cases same
    · obtain ⟨waited, read, same, left⟩ := waiting_of_found found waits
      obtain ⟨interrupted, cleared⟩ := Pipeline.outputOf_of_isDue due read
      rw [interrupted] at same
      cases same
      cases ends
      refine ⟨rfl, ?_⟩
      rw [leavesPending_iff left, cleared]
      exact Bool.false_ne_true
  rcases Run.bind_eq_some_iff.mp answer with ⟨error, reads, _⟩ | ⟨text, middle, reads, ends⟩
  · cases (plain reads).1
  · cases ends
    exact ⟨⟨_, rfl⟩, (plain reads).2⟩

theorem lines_of_isDue (due : IsDue false before.machine pipeline)
    (found : before.pipeline? handle.number = some pipeline)
    (uncaptured : pipeline.output = none)
    (answer : (ask .lines handle).run rounds before = some (result, after)) :
    (ask .lines handle).LeavesPending after := by
  rcases Run.bind_eq_some_iff.mp answer with ⟨error, waits, _⟩ | ⟨lines, middle, waits, ends⟩
  · obtain ⟨waited, _, same, _⟩ := waiting_of_found found waits
    cases same
  · obtain ⟨waited, read, _, left⟩ := waiting_of_found found waits
    cases ends
    rw [leavesPending_iff left]
    exact Pipeline.lines_of_isDue uncaptured due read

theorem interrupted_of_isDue (due : IsDue false before.machine pipeline)
    (found : before.pipeline? handle.number = some pipeline)
    (reporting : ¬ (ask question handle).GivesAnyway) (raising : question ≠ .lines)
    (answer : (ask question handle).run rounds before = some (result, after)) :
    result = .error (.process .interrupted) := by
  cases question with
  | truth => exact absurd ⟨handle, .inl rfl⟩ reporting
  | text => exact absurd ⟨handle, .inr rfl⟩ reporting
  | lines => exact absurd rfl raising
  | output =>
    exact Handle.waiting_bind_of_reports
      (fun waits => (Pipeline.outputOf_of_isDue due waits).1) found answer
  | errors =>
    exact Handle.waiting_bind_of_reports
      (fun waits => Pipeline.errorsOf_of_isDue due waits) found answer
  | returncode =>
    exact Handle.waiting_bind_of_reports
      (fun waits => (Pipeline.returncode_of_isDue due waits).1) found answer
  | signal | endTime => exact Handle.ended_bind_of_isDue due found answer
  | wait =>
    exact Handle.waiting_bind_of_reports
      (fun waits => (Pipeline.wait_of_isDue due waits).1) found answer
  | check => exact Handle.ended_bind_of_isDue due found answer

theorem command_of_isDue (due : IsDue true before.machine pipeline)
    (found : before.pipeline? number = some pipeline)
    (answer : (command number).run rounds before = some (result, after)) :
    result = .error (.process .interrupted) ∨ after.IsPending number := by
  have delivered {given : Except EvalError Int} {middle : Shell}
      (waits : Run.ofProcess (JobControl.waitForeground rounds number) before =
        some (given, middle)) :
      given = .error (.process .interrupted) ∨ middle.IsPending number := by
    obtain ⟨outcome, acts, rfl⟩ := Run.ofProcess_eq_some_iff.mp waits
    obtain ⟨_, _, polled, kept, reported, _⟩ :=
      JobControl.waitAs_eq_some (Shell.KeepsPending number) acts
    obtain ⟨other, waited, same, ends, rfl, rfl⟩ := Action.withPipeline_eq_some_iff.mp polled
    rw [found] at same
    cases same
    rcases due ends with ⟨interrupted, _⟩ | ⟨_, pending⟩
    · rw [reported _ interrupted]
      exact .inl rfl
    · exact .inr (kept ⟨waited.pipeline, Action.pipeline?_after found _, pending⟩)
  rcases Run.bind_eq_some_iff.mp answer with ⟨error, waits, rfl⟩ | ⟨code, middle, waits, ends⟩
  · simp_all
  · rcases delivered waits with interrupted | pending
    · cases interrupted
    · cases ends
      exact .inr pending

theorem statementEnd_of_isRaised (running : before.session.exitRequest = none)
    (raised : before.machine.isRaised Machine.sessionFlag = true)
    (answer : statementEnd.run rounds before = some (result, after)) :
    result = .error (.process .interrupted) := by
  have checks : Run.checkSignals before = some (.error (.process .interrupted),
      { before with machine := before.machine.setFlag Machine.sessionFlag false }) := by
    unfold Run.checkSignals
    rw [Run.get_bind, running]
    dsimp only
    rw [if_pos raised]
    rfl
  rcases Run.bind_eq_some_iff.mp answer with ⟨error, checked, rfl⟩ | ⟨_, middle, checked, _⟩
  · simp_all
  · simp_all

/-! ### Steps that take no interrupt -/

theorem keepsPending_ask (other : handle.number ≠ number) (question : Question) :
    Run.Keeps (Shell.KeepsPending number) ((ask question handle).run rounds) := by
  have waits {α : Type} (wait : Machine → Pipeline → Option (Waited α)) :
      Action.Keeps (Shell.KeepsPending number) (Action.withPipeline handle.number wait) :=
    Action.keepsPending_withPipeline fun same => absurd same other
  have ended : Run.Keeps (Shell.KeepsPending number) (Handle.ended rounds handle) :=
    .bind (.ofProcess (waits _)) fun _ => Handle.keeps_pipeline handle
  cases question with
  | truth => exact .bind (.lift (waits _)) fun _ => .pure _
  | text =>
    refine .bind (.bind (.lift (waits _)) fun found => ?_) fun _ => .pure _
    split <;> exact .pure _
  | output | errors | returncode => exact .bind (.ofProcess (waits _)) fun _ => .pure _
  | lines => exact .bind (.lift (waits _)) fun _ => .pure _
  | signal =>
    refine .bind ended fun pipeline => ?_
    split <;> exact .pure _
  | endTime => exact .bind ended fun _ => .pure _
  | wait => exact .bind (.ofProcess (waits _)) fun _ => .pure _
  | check =>
    refine .bind ended fun pipeline => ?_
    split
    · exact .throw _
    · exact .pure _

theorem keepsPending_lines (number : Nat) :
    Run.Keeps (Shell.KeepsPending number) ((ask .lines handle).run rounds) := by
  refine .bind (.lift (Action.keepsPending_withPipeline ?_)) fun _ => .pure _
  exact fun _ => fun {_ _ _} reads pending => Pipeline.lines_of_pending pending reads

theorem interrupted_or_isPending (reporting : ¬ step.GivesAnyway)
    (pending : before.IsPending number) (answer : step.run rounds before = some (result, after)) :
    result = .error (.process .interrupted) ∨ after.IsPending number := by
  cases step with
  | ask question handle =>
    by_cases same : handle.number = number
    · by_cases lines : question = .lines
      · rw [lines] at answer
        exact .inr (keepsPending_lines number answer pending)
      · rw [← same] at pending
        obtain ⟨pipeline, found, pending⟩ := pending
        have due : IsDue false before.machine pipeline := Pipeline.isDue_of_pending pending
        exact .inl (interrupted_of_isDue due found reporting lines answer)
    · exact .inr (keepsPending_ask same question answer pending)
  | command other =>
    by_cases same : other = number
    · rw [same] at answer
      obtain ⟨pipeline, found, pending⟩ := pending
      exact command_of_isDue (Pipeline.isDue_of_pending pending) found answer
    · have waits : Action.Keeps (Shell.KeepsPending number)
          (JobControl.waitForeground rounds other) :=
        JobControl.keeps_waitAs
          (Action.keepsPending_withPipeline fun distinct => absurd distinct same) none
      exact .inr (Run.Keeps.bind (.ofProcess waits) (fun _ => .pure _) answer pending)
  | statementEnd =>
    have kept : Shell.KeepsPending number before after :=
      Run.Keeps.bind Run.keeps_checkSignals (fun _ => .pure _) answer
    exact .inr (kept pending)

/-! ### Steps one after the other -/

/-- Run steps one after the other, until one ends early. -/
def runAll (rounds : Nat) : List WaitingStep → Run Unit
  | [] => return
  | step :: rest => do
    let _ ← step.run rounds
    runAll rounds rest

/-- The run of some steps comes to one of them in some shell, and others follow it. -/
inductive Reaches (rounds : Nat) :
    List WaitingStep → Shell → WaitingStep → List WaitingStep → Shell → Prop
  | first {step : WaitingStep} {later : List WaitingStep} {before : Shell} :
      Reaches rounds (step :: later) before step later before
  | next {other step : WaitingStep} {rest later : List WaitingStep} {start middle before : Shell}
      {value : Value} (gives : other.run rounds start = some (.ok value, middle))
      (reaches : Reaches rounds rest middle step later before) :
      Reaches rounds (other :: rest) start step later before

theorem runAll_of_reaches {later : List WaitingStep} {start : Shell} {error : EvalError}
    (reaches : Reaches rounds steps start step later before)
    (answer : step.run rounds before = some (.error error, after)) :
    runAll rounds steps start = some (.error error, after) := by
  induction reaches with
  | first => exact Run.bind_eq_some_iff.mpr (.inl ⟨error, answer, rfl⟩)
  | next gives _ ih => exact Run.bind_eq_some_iff.mpr (.inr ⟨_, _, gives, ih answer⟩)

theorem interrupted_or_isPending_of_runAll {ended : Except EvalError Unit}
    (reporting : ∀ step ∈ steps, ¬ step.GivesAnyway) (pending : before.IsPending number)
    (answer : runAll rounds steps before = some (ended, after)) :
    ended = .error (.process .interrupted) ∨ after.IsPending number := by
  induction steps generalizing before with
  | nil =>
    cases answer
    exact .inr pending
  | cons step rest ih =>
    have delivered {result : Except EvalError Value} {middle : Shell}
        (answer : step.run rounds before = some (result, middle)) :
        result = .error (.process .interrupted) ∨ middle.IsPending number :=
      interrupted_or_isPending (reporting step List.mem_cons_self) pending answer
    rcases Run.bind_eq_some_iff.mp answer with
      ⟨error, fails, rfl⟩ | ⟨value, middle, gives, goesOn⟩
    · simp_all
    · grind

theorem delivered_of_takes (takes : step.Takes before) (reporting : ¬ step.GivesAnyway)
    (answer : step.run rounds before = some (result, after)) :
    result = .error (.process .interrupted) ∨ step.LeavesPending after := by
  cases step with
  | ask question handle =>
    obtain ⟨pipeline, found, uncaptured, takes⟩ := takes
    have due := Pipeline.isDue_of_takes takes
    by_cases lines : question = .lines
    · rw [lines] at answer ⊢
      exact .inr (lines_of_isDue due found (uncaptured lines) answer)
    · exact .inl (interrupted_of_isDue due found reporting lines answer)
  | command number =>
    obtain ⟨pipeline, found, takes⟩ := takes
    rcases command_of_isDue (Pipeline.isDue_of_takes takes) found answer with
      interrupted | pending
    · exact .inl interrupted
    · exact .inr ⟨number, rfl, pending⟩
  | statementEnd => exact .inl (statementEnd_of_isRaised takes.1 takes.2 answer)

theorem lost_of_takes (takes : step.Takes before) (givesAnyway : step.GivesAnyway)
    (answer : step.run rounds before = some (result, after)) :
    (∃ value, result = .ok value) ∧ ¬ step.LeavesPending after := by
  obtain ⟨handle, rfl | rfl⟩ := givesAnyway
  · obtain ⟨pipeline, found, _, takes⟩ := takes
    exact truth_of_isDue (Pipeline.isDue_of_takes takes) found answer
  · obtain ⟨pipeline, found, _, takes⟩ := takes
    exact text_of_isDue (Pipeline.isDue_of_takes takes) found answer

theorem expression_ask (depth : Nat) {name : String} (question : Question)
    (bound : before.lookUp? name = some (.pipeline handle))
    (truth : before.lookUp? "bool" = none) (text : before.lookUp? "str" = none) :
    (Interpreter.ofDepth rounds (depth + 2)).expression (question.expression (.name name)) before =
      (ask question handle).run rounds before := by
  have looks : (Interpreter.ofDepth rounds (depth + 1)).expression (.name name) before =
      some (.ok (.pipeline handle), before) := by
    change ExpressionRun.lookUp name before = _
    rw [ExpressionRun.lookUp, Run.get_bind, bound]
    rfl
  have finds {function : String} {builtin : Builtin} (free : before.lookUp? function = none)
      (known : Builtin.ofName? function = some builtin) :
      (Interpreter.ofDepth rounds (depth + 1)).expression (.name function) before =
        some (.ok (.builtin builtin), before) := by
    change ExpressionRun.lookUp function before = _
    rw [ExpressionRun.lookUp, Run.get_bind, free, known]
    rfl
  have lists : [Expr.name name].mapM (Interpreter.ofDepth rounds (depth + 1)).expression before =
      some (.ok [.pipeline handle], before) := by
    rw [List.mapM_cons, Run.bind_of_ok looks]
    rfl
  cases question with
  | truth =>
    refine (Run.bind_of_ok (finds truth (rfl : _ = some Builtin.bool))).trans ?_
    refine (Run.bind_of_ok lists).trans ?_
    rfl
  | text =>
    refine (Run.bind_of_ok (finds text (rfl : _ = some Builtin.str))).trans ?_
    refine (Run.bind_of_ok lists).trans ?_
    rfl
  | output | errors | returncode | lines | signal | endTime | wait => exact Run.bind_of_ok looks
  | check => exact Run.bind_of_ok looks

end WaitingStep

open WaitingStep in
/--
A step that takes an interrupt while a program runs ends the program with it,
or leaves it pending until a later step reports it.  The truth and the text of
a handle do neither.
-/
theorem interrupts_are_delivered_iff {rounds : Nat} {steps later : List WaitingStep}
    {step : WaitingStep} {start before after : Shell} {result : Except EvalError Value}
    (reaches : Reaches rounds steps start step later before) (takes : step.Takes before)
    (answer : step.run rounds before = some (result, after)) :
    ((result = .error (.process .interrupted) ∨ step.LeavesPending after) ↔
        ¬ step.GivesAnyway) ∧
      (step.GivesAnyway → ∃ value, result = .ok value) ∧
      (result = .error (.process .interrupted) →
        ∃ error, runAll rounds steps start = some (.error error, after) ∧
          error.isInterrupt = true) ∧
      (step.LeavesPending after → (∀ other ∈ later, ¬ other.GivesAnyway) →
        ∀ {ended final}, runAll rounds later after = some (ended, final) →
          ended = .error (.process .interrupted) ∨ step.LeavesPending final) := by
  refine ⟨⟨?_, fun reporting => delivered_of_takes takes reporting answer⟩, ?_, ?_, ?_⟩
  · rintro delivered givesAnyway
    obtain ⟨⟨value, rfl⟩, lost⟩ := lost_of_takes takes givesAnyway answer
    rcases delivered with interrupted | pending
    · cases interrupted
    · exact lost pending
  · exact fun givesAnyway => (lost_of_takes takes givesAnyway answer).1
  · rintro rfl
    exact ⟨_, runAll_of_reaches reaches answer, rfl⟩
  · rintro ⟨number, member, pending⟩ reporting ended final goesOn
    rcases interrupted_or_isPending_of_runAll reporting pending goesOn with interrupted | still
    · exact .inl interrupted
    · exact .inr ⟨number, member, still⟩

def interruptedPipeline : Pipeline :=
  { arguments := [["sleep", "9"]]
    aliases := [none]
    capture := .object
    background := false
    group := none
    output := none
    errors := none
    observed := none
    flag := 1
    interruptPending := true
    raises := false
    stages := [.ended (.signaled Signal.interrupt false)]
    verdict := some ⟨-Signal.interrupt, 0⟩
    outputText := none
    started := 0
    ended := some 0 }

def interruptedHandle : PipelineHandle :=
  ⟨0, [["sleep", "9"]]⟩

def interruptedShell : Shell :=
  { Shell.start (.start ⟨∅, "/"⟩ []) (.start "/" ∅ false) with
    pipelines := Store.empty.add interruptedPipeline
    globals := .ofList [("p", .pipeline interruptedHandle)] }

open WaitingStep in
/-- The lines of the handle are given and leave the interrupt to its return code. -/
theorem interrupts_are_delivered_iff_lines_returncode :
    (ask .returncode interruptedHandle).Takes interruptedShell ∧
      ∃ error after,
        runAll 1 [ask .lines interruptedHandle, ask .returncode interruptedHandle]
          interruptedShell = some (.error error, after) ∧ error.isInterrupt = true := by
  have takes : (ask .returncode interruptedHandle).Takes interruptedShell :=
    ⟨interruptedPipeline, rfl, nofun, .reports rfl rfl⟩
  have gives : (ask .lines interruptedHandle).run 1 interruptedShell =
      some (.ok (.list []), interruptedShell) := rfl
  have reaches : Reaches 1 [ask .lines interruptedHandle, ask .returncode interruptedHandle]
      interruptedShell (ask .returncode interruptedHandle) [] interruptedShell :=
    .next gives .first
  have fails : (ask .returncode interruptedHandle).run 1 interruptedShell =
      some (.error (.process .interrupted), { interruptedShell with
        pipelines := Store.empty.add { interruptedPipeline with interruptPending := false } }) :=
    rfl
  obtain ⟨error, ends, interrupt⟩ := (interrupts_are_delivered_iff reaches takes fails).2.2.1 rfl
  exact ⟨takes, error, _, ends, interrupt⟩

/-- The truth and the text of a handle are given, and the interrupt is neither raised nor left. -/
theorem interrupt_is_lost_by_truth_and_text :
    interruptedShell.IsPending 0 ∧
      ∃ after,
        (Interpreter.ofDepth 1 2).expression (.call (.name "bool") [.name "p"])
            interruptedShell = some (.ok (.bool false), after) ∧
          (Interpreter.ofDepth 1 2).expression (.call (.name "str") [.name "p"])
            interruptedShell = some (.ok (.str ""), after) ∧
          ¬ after.IsPending 0 ∧ after.machine.isRaised Machine.sessionFlag = false := by
  have asks (question : Question) :
      (Interpreter.ofDepth 1 2).expression (question.expression (.name "p")) interruptedShell =
        (WaitingStep.ask question interruptedHandle).run 1 interruptedShell :=
    WaitingStep.expression_ask 0 question rfl rfl rfl
  refine ⟨⟨interruptedPipeline, rfl, rfl⟩, _, (asks .truth).trans rfl, (asks .text).trans rfl,
    ?_, rfl⟩
  rintro ⟨pipeline, found, pending⟩
  cases found
  cases pending

end HybridShell
