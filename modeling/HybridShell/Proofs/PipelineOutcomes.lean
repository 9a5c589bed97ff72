import HybridShell.Proofs.Layers

/-!
# How pipelines come out

A pipeline of a chain cannot be started, or runs to a code, or ends the
evaluation early.  A pipeline that ran gives its code to the chain; one that
could not be started is reported with the status of the failure, or its failure
is raised at once, as the settings say.  A pipeline that no handle stands for
never raises its failure itself.
-/

namespace HybridShell

namespace Pipeline

/-- What a chain finds of a pipeline that it is done with. -/
structure RanWith (code : Int) (pipeline : Pipeline) : Prop where
  judged : pipeline.IsJudged
  given : pipeline.isDone = true → code = pipeline.returncode?.getD 0
  quiet : pipeline.raises = false

theorem assemble_eq_some {rounds : Nat} {settings : Settings} {host : HostStreams}
    {runner : NestedRunner} {specs : List StageSpec} {before after : Shell} {number : Nat}
    (answer : assemble rounds settings host runner specs before = some (.ok number, after)) :
    ∃ last ∈ specs, ∃ pipeline, after.pipeline? number = some pipeline ∧
      pipeline.verdict = none ∧
      pipeline.raises = (settings.raiseOnFailure && last.capture = .object) := by
  unfold assemble at answer
  cases isLast : specs.getLast? with rw [isLast] at answer
  | none =>
    cases answer
  | some last =>
    obtain ⟨session, _, _, answer⟩ := Action.bind_eq_some_iff.mp answer
    obtain ⟨shell, _, _, answer⟩ := Action.bind_eq_some_iff.mp answer
    obtain ⟨prepared, _, _, answer⟩ := Action.bind_eq_some_iff.mp answer
    obtain ⟨found, _, _, answer⟩ := Action.bind_eq_some_iff.mp answer
    cases found with
    | error error => cases answer
    | ok assembly =>
      obtain ⟨_, _, _, answer⟩ := Action.bind_eq_some_iff.mp answer
      obtain ⟨_, closed, _, answer⟩ := Action.bind_eq_some_iff.mp answer
      cases answer
      exact ⟨last, List.mem_of_getLast? isLast, _, Store.get?_add_size _ _, rfl, rfl⟩

end Pipeline

theorem Blueprint.gives_buildStage (blueprint : Blueprint) (command : ExpandedCommand)
    (index : Nat) :
    Run.Gives (·.capture = blueprint.capture) (blueprint.buildStage command index) := by
  refine .bind fun shell => .bind fun arguments => ?_
  exact .ite_bind (.bind fun _ => .bind fun _ => .bind fun _ => .bind fun _ => .pure rfl)

namespace CommandRun

variable {inner : Interpreter} {capture : Capture} {commands : List Command}
  {background negated : Bool} {before after : Shell}

theorem start_eq_some {number : Nat} (notObject : capture ≠ .object)
    (answer : start inner (runner inner) capture commands background negated before =
      some (.ok number, after)) :
    ∃ pipeline, after.pipeline? number = some pipeline ∧ pipeline.verdict = none ∧
      pipeline.raises = false := by
  unfold start at answer
  rw [Run.get_bind] at answer
  obtain ⟨error, _, same⟩ | ⟨specs, built, builds, answer⟩ := Run.bind_eq_some_iff.mp answer
  · cases same
  · have captures : ∀ spec ∈ specs, spec.capture = capture := by
      refine Run.Gives.mapM _ (fun numbered => ?_) builds
      exact .bind fun expanded => .ofProcess (Blueprint.gives_buildStage _ expanded _)
    obtain ⟨found, assembled, same⟩ := Run.ofProcess_eq_some_iff.mp answer
    cases found with
    | error error => cases same
    | ok given =>
      cases same
      obtain ⟨last, member, pipeline, found, unsettled, raises⟩ :=
        Pipeline.assemble_eq_some assembled
      simp_all

end CommandRun

/-! ### Outcomes -/

/-- How running a pipeline comes out, whatever is done about failures. -/
inductive PipelineOutcome where
  /-- It could not be started. -/
  | notStarted (error : ProcessError)
  /-- It ran, with a code and the failure that it stands for then. -/
  | ran (code : Int) (failure : Option ProcessError)
  /-- Evaluation ended early. -/
  | endedEarly (error : EvalError)

namespace PipelineOutcome

def ofStart : EvalError → PipelineOutcome
  | .process .interrupted => endedEarly (.process .interrupted)
  | .process error => notStarted error
  | error => endedEarly error

def ofWait (shell : Shell) (number : Nat) : Except EvalError Int → PipelineOutcome
  | .error error => endedEarly error
  | .ok code => ran code ((shell.pipeline? number).bind Pipeline.failure?)

def isNotStarted : PipelineOutcome → Bool
  | notStarted _ => true
  | _ => false

def SignalIsPositive : PipelineOutcome → Prop
  | ran _ (some (.signaled _ signal)) => 0 < signal
  | _ => True

end PipelineOutcome

theorem Pipeline.RanWith.exitCode_failure {code : Int} {pipeline : Pipeline} {error : ProcessError}
    (ranWith : pipeline.RanWith code) (failed : pipeline.failure? = some error)
    (positive : (PipelineOutcome.ran code pipeline.failure?).SignalIsPositive) :
    code ≠ 0 ∧ error.exitCode = shellExitCode code := by
  obtain ⟨nonzero, ⟨command, rfl⟩ | ⟨command, signal, rfl, rfl⟩⟩ :=
    failure?_cases ranWith.judged ranWith.given failed
  · exact ⟨nonzero, rfl⟩
  · rw [failed] at positive
    have positive : 0 < signal := positive
    have negative : -signal < 0 := by omega
    refine ⟨nonzero, ?_⟩
    rw [shellExitCode, if_pos negative, Int.sub_neg]
    rfl

namespace Shell

def raisesFailures (shell : Shell) : Bool :=
  shell.session.settings.raiseOnFailure

def SamePipelines (before after : Shell) : Prop :=
  ∀ number, after.pipeline? number = before.pipeline? number

/-- The pipelines go on, and raise their failures if they did before. -/
def PipelinesStay (before after : Shell) : Prop :=
  Pipeline.AllStay before.pipelines after.pipelines

instance : AllowsOutside SamePipelines where
  refl _ _ := rfl
  trans _ _ _ first second number := (second number).trans (first number)
  outside _ _ _ _ _ _ := rfl

theorem PipelinesStay.refl (shell : Shell) : PipelinesStay shell shell :=
  fun _ pipeline found => ⟨pipeline, found, rfl⟩

instance : AllowsPipelines PipelinesStay where
  refl := PipelinesStay.refl
  trans _ _ _ first second number pipeline found := by
    obtain ⟨middle, found, same⟩ := first number pipeline found
    obtain ⟨last, found, still⟩ := second number middle found
    exact ⟨last, found, still.trans same⟩
  outside shell _ _ _ _ := PipelinesStay.refl shell
  pipelines _ _ _ _ stay := stay

instance : AllowsCode PipelinesStay where
  surroundings shell _ _ _ _ _ := PipelinesStay.refl shell
  assignment shell name value := by
    unfold setVariable
    split <;> exact PipelinesStay.refl shell
  inFrame name locals runs before after result answer := by
    rw [Run.inFrame_run] at answer
    split at answer
    · cases answer
      exact PipelinesStay.refl before
    · obtain ⟨middle, ran, rfl⟩ := Run.andFinally_eq_some_iff.mp answer
      have stay := runs ran
      exact stay
  outsideCalls runs before after result answer := by
    obtain ⟨middle, ran, rfl⟩ := Run.andFinally_eq_some_iff.mp answer
    have stay := runs ran
    exact stay

end Shell

namespace CommandRun

/-- Wait for a started pipeline, unless it is in the background. -/
def finish (inner : Interpreter) (background : Bool) (number : Nat) : Run Int :=
  if background then do
    registerBackground number
    pure 0
  else Run.ofProcess (JobControl.waitForeground inner.rounds number)

/-- How a pipeline comes out, and the shell that it leaves. -/
def outcome? (inner : Interpreter) (capture : Capture) (commands : List Command)
    (background negated : Bool) (before : Shell) : Option (PipelineOutcome × Shell) :=
  (start inner (runner inner) capture commands background negated before).bind fun started =>
    match started.1 with
    | .error error => some (.ofStart error, started.2)
    | .ok number =>
      (finish inner background number started.2).map fun found =>
        (.ofWait found.2 number found.1, found.2)

/-- What a chain makes of the outcome of a pipeline, with failures raised or not. -/
inductive Concludes (raises : Bool) : PipelineOutcome → Except EvalError Chain.Report → Shell → Prop
  | endedEarly {error : EvalError} {shell : Shell} :
      Concludes raises (.endedEarly error) (.error error) shell
  | raised {error : ProcessError} {shell : Shell} (raising : raises = true) :
      Concludes raises (.notStarted error) (.error (.process error)) shell
  | reported {error : ProcessError} {shell : Shell} (notRaising : raises = false) :
      Concludes raises (.notStarted error) (.ok ⟨error.exitCode, []⟩) shell
  | ran {code : Int} {number : Nat} {pipeline : Pipeline} {shell : Shell}
      (found : shell.pipeline? number = some pipeline) (ranWith : pipeline.RanWith code) :
      Concludes raises (.ran code pipeline.failure?) (.ok ⟨code, [number]⟩) shell

variable {result : Except EvalError Chain.Report}

variable {code : Int} {number : Nat} {fresh : Pipeline}

/-- A pipeline that ran gives its code, whatever is done about failures. -/
theorem Concludes.of_ran {raises : Bool} {failure : Option ProcessError} {shell : Shell}
    (concludes : Concludes raises (.ran code failure) result shell) :
    ∃ number, result = .ok ⟨code, [number]⟩ := by
  generalize ran : PipelineOutcome.ran code failure = outcome at concludes
  cases concludes with
  | endedEarly | raised | reported => cases ran
  | ran =>
    cases ran
    exact ⟨_, rfl⟩

variable {inner : Interpreter} {capture : Capture} {commands : List Command}
  {background negated : Bool} {before middle after : Shell}

/-- What the chain can tell about a pipeline that it is done with. -/
theorem finish_eq_some (started : before.pipeline? number = some fresh)
    (unsettled : fresh.verdict = none) (quiet : fresh.raises = false)
    (answer : finish inner background number before = some (.ok code, after)) :
    ∃ pipeline, after.pipeline? number = some pipeline ∧ pipeline.RanWith code := by
  unfold finish at answer
  split at answer
  · obtain ⟨error, _, same⟩ | ⟨_, middle, registers, same⟩ := Run.bind_eq_some_iff.mp answer
    · cases same
    · cases same
      have kept : Shell.SamePipelines before after :=
        Run.Keeps.monadLift (keeps_registerBackground number) registers
      refine ⟨fresh, (kept number).trans started, Pipeline.isJudged_of_none unsettled, ?_, quiet⟩
      simp [Pipeline.isDone, unsettled]
  · obtain ⟨found, waits, same⟩ := Run.ofProcess_eq_some_iff.mp answer
    obtain ⟨ending, middle, waited, kept, failed, finished⟩ :=
      JobControl.waitAs_eq_some Shell.SamePipelines waits
    obtain ⟨pipeline, result, held, rounds, rfl, rfl⟩ :=
      Action.withPipeline_eq_some_iff.mp waited
    obtain rfl : pipeline = fresh := Option.some.inj (held.symm.trans started)
    have judged : result.pipeline.IsJudged :=
      Pipeline.waitFor_keeps Pipeline.IsJudged (fun _ _ => Pipeline.isJudged_poll)
        (fun _ _ judged => judged) (Pipeline.isJudged_of_none unsettled) rounds
    have still := (Pipeline.leavesInPlace_waitFor true inner.rounds rounds).raises.trans quiet
    refine ⟨result.pipeline, (kept number).trans (Action.pipeline?_after held _), judged, ?_, still⟩
    intro done
    rcases Pipeline.waitFor_cases rounds with ⟨_, interrupted | ended⟩ | ⟨running, _⟩
    · rw [failed _ interrupted] at same
      cases same
    · rw [finished _ ended] at same
      cases same
      rfl
    · simp_all

theorem reportsAtOnce_cases (notObject : capture ≠ .object) (settings : Settings)
    (error : EvalError) :
    (∃ failure, PipelineOutcome.ofStart error = .notStarted failure ∧ error = .process failure ∧
        reportsAtOnce capture settings error =
          if settings.raiseOnFailure then none else some failure) ∨
      PipelineOutcome.ofStart error = .endedEarly error ∧
        reportsAtOnce capture settings error = none := by
  cases error with
  | process failure =>
    cases failure with
    | interrupted => exact .inr ⟨rfl, rfl⟩
    | malformed | notFound | notExecutable | aliasCycle | cannotStart | signaled | failed =>
      refine .inl ⟨_, rfl, rfl, ?_⟩
      simp only [reportsAtOnce, notObject, ne_eq, not_false_eq_true, decide_true,
        Bool.true_and]
      cases settings.raiseOnFailure <;> rfl
  | parse | host | system | recursion | returned | leftLoop | nextRound | exit =>
    exact .inr ⟨rfl, rfl⟩

def reportOrRaise (capture : Capture) (error : EvalError) : Run Chain.Report := do
  match reportsAtOnce capture (← get).session.settings error with
  | none => throw error
  | some failure =>
    modify (·.complain ("duosh: " ++ failure.message))
    setLastReturncode failure.exitCode
    return ⟨failure.exitCode, []⟩

def conclude (inner : Interpreter) (background : Bool) (number : Nat) : Run Chain.Report := do
  let code ← finish inner background number
  setLastReturncode code
  return ⟨code, [number]⟩

theorem pipeline_eq_some
    (answer : pipeline inner capture commands background negated before = some (result, after)) :
    ∃ started middle,
      start inner (runner inner) capture commands background negated before =
        some (started, middle) ∧
      (∀ error, started = .error error →
        reportOrRaise capture error middle = some (result, after)) ∧
      ∀ number, started = .ok number →
        conclude inner background number middle = some (result, after) := by
  obtain ⟨error, impossible, _⟩ | ⟨started, middle, starts, answer⟩ :=
    Run.bind_eq_some_iff.mp answer
  · obtain ⟨_, _, _, same⟩ := Action.bind_eq_some_iff.mp impossible
    cases same
  · obtain ⟨found, _, starts, same⟩ := Action.bind_eq_some_iff.mp starts
    cases same
    refine ⟨started, middle, starts, ?_, ?_⟩
    · rintro error rfl
      exact answer
    · rintro number rfl
      unfold conclude finish
      cases background with
      | true => simp_all
      | false => exact answer

theorem concludes_reportOrRaise {error : EvalError} (notObject : capture ≠ .object)
    (answer : reportOrRaise capture error before = some (result, after)) :
    Concludes before.raisesFailures (.ofStart error) result after ∧
      after.raisesFailures = before.raisesFailures := by
  unfold reportOrRaise at answer
  rw [Run.get_bind] at answer
  obtain ⟨failure, outcome, rfl, reports⟩ | ⟨outcome, reports⟩ :=
    reportsAtOnce_cases notObject before.session.settings error
  · rw [outcome]
    cases raises : before.session.settings.raiseOnFailure with
    | true =>
      rw [raises, if_pos rfl] at reports
      rw [reports] at answer
      cases answer
      exact ⟨.raised raises, rfl⟩
    | false =>
      rw [raises, if_neg Bool.false_ne_true] at reports
      rw [reports] at answer
      cases answer
      exact ⟨.reported raises, rfl⟩
  · rw [outcome]
    rw [reports] at answer
    cases answer
    exact ⟨.endedEarly, rfl⟩

theorem concludes_conclude (started : before.pipeline? number = some fresh)
    (unsettled : fresh.verdict = none) (quiet : fresh.raises = false)
    (answer : conclude inner background number before = some (result, after)) :
    ∃ given middle, finish inner background number before = some (given, middle) ∧
      Concludes middle.raisesFailures (.ofWait middle number given) result after ∧
      after.raisesFailures = middle.raisesFailures := by
  obtain ⟨error, finishes, rfl⟩ | ⟨code, middle, finishes, same⟩ :=
    Run.bind_eq_some_iff.mp answer
  · exact ⟨.error error, after, finishes, .endedEarly, rfl⟩
  · cases same
    obtain ⟨pipeline, found, ranWith⟩ := finish_eq_some started unsettled quiet finishes
    refine ⟨.ok code, middle, finishes, ?_, rfl⟩
    rw [PipelineOutcome.ofWait, found]
    -- The shell has another status than the one that was waited in, and the same pipelines.
    exact .ran found ranWith

/-- A chain goes by the outcome of a pipeline, and by the settings that it leaves. -/
theorem concludes_pipeline (notObject : capture ≠ .object)
    (answer : pipeline inner capture commands background negated before = some (result, after)) :
    ∃ outcome middle,
      outcome? inner capture commands background negated before = some (outcome, middle) ∧
        Concludes middle.raisesFailures outcome result after ∧
        after.raisesFailures = middle.raisesFailures := by
  obtain ⟨started, middle, starts, fails, runs⟩ := pipeline_eq_some answer
  unfold outcome?
  rw [starts]
  cases started with
  | error error => exact ⟨_, middle, rfl, concludes_reportOrRaise notObject (fails error rfl)⟩
  | ok number =>
    obtain ⟨fresh, found, unsettled, quiet⟩ := start_eq_some notObject starts
    obtain ⟨given, last, finishes, concludes⟩ :=
      concludes_conclude found unsettled quiet (runs number rfl)
    simp_all

end CommandRun

end HybridShell
