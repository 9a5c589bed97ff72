import HybridShell.Pipeline.Waiting
import HybridShell.Proofs.PipeNumbers

/-!
# Rounds of waiting

A wait looks at the pipeline again and again.  It is over when the pipeline has
ended or, in the foreground, when it stands still.  A pipeline that has ended
stands for a failure unless the stage that decided has the code zero.
-/

namespace HybridShell

namespace Pipeline

theorem waitFor_succ (foreground : Bool) (rounds : Nat) (machine : Machine)
    (pipeline : Pipeline) :
    waitFor foreground (rounds + 1) machine pipeline =
      let polled := poll machine pipeline
      if polled.2.isDone then
        if polled.2.interruptPending then
          some ⟨polled.1, { polled.2 with interruptPending := false }, .error .interrupted⟩
        else some ⟨polled.1, polled.2, .ok (.finished (polled.2.returncode?.getD 0))⟩
      else if foreground && polled.2.isStopped then some ⟨polled.1, polled.2, .ok .stopped⟩
      else if polled.1.isRaised Machine.sessionFlag then
        waitFor foreground rounds
          (interrupt (polled.1.setFlag Machine.sessionFlag false) polled.2)
          { polled.2 with interruptPending := true }
      else polled.1.passTime?.bind fun next => waitFor foreground rounds next polled.2 := by
  grind [waitFor]

variable {foreground : Bool} {rounds : Nat} {machine : Machine} {pipeline : Pipeline}
  {waited : Waited (Except ProcessError WaitEnd)}

theorem poll_of_isDone (done : pipeline.isDone = true) :
    poll machine pipeline = (machine, pipeline) := by
  rw [poll, if_pos done]

theorem isDone_poll (done : pipeline.isDone = true) :
    (poll machine pipeline).2.isDone = true := by
  rw [poll_of_isDone done]
  exact done

theorem waitFor_keeps (property : Pipeline → Prop)
    (polls : ∀ machine pipeline, property pipeline → property (poll machine pipeline).2)
    (marks : ∀ pipeline pending, property pipeline →
      property { pipeline with interruptPending := pending })
    (holds : property pipeline)
    (answer : waitFor foreground rounds machine pipeline = some waited) :
    property waited.pipeline := by
  induction rounds generalizing machine pipeline with
  | zero => cases answer
  | succ rounds ih =>
    have looked := polls machine pipeline holds
    rw [waitFor_succ] at answer
    dsimp only at answer
    split at answer
    · grind
    · split at answer
      · grind
      · split at answer
        · exact ih (marks _ true looked) answer
        · obtain ⟨next, _, answer⟩ := Option.bind_eq_some_iff.mp answer
          exact ih looked answer

theorem isDone_waitFor (done : pipeline.isDone = true)
    (answer : waitFor foreground rounds machine pipeline = some waited) :
    waited.pipeline.isDone = true :=
  waitFor_keeps (·.isDone = true) (fun _ _ => isDone_poll) (fun _ _ done => done) done answer

theorem waitFor_cases (answer : waitFor foreground rounds machine pipeline = some waited) :
    waited.pipeline.isDone = true ∧
        (waited.result = .error .interrupted ∨
          waited.result = .ok (.finished (waited.pipeline.returncode?.getD 0))) ∨
      waited.pipeline.isDone = false ∧ waited.result = .ok .stopped ∧ foreground = true := by
  induction rounds generalizing machine pipeline with
  | zero => cases answer
  | succ rounds ih =>
    rw [waitFor_succ] at answer
    dsimp only at answer
    split at answer
    · next done =>
      split at answer
      · cases answer
        exact .inl ⟨done, .inl rfl⟩
      · grind
    · split at answer
      · grind
      · split at answer
        · exact ih answer
        · obtain ⟨next, _, answer⟩ := Option.bind_eq_some_iff.mp answer
          exact ih answer

/-! ### What stays in place

A pipeline is started with or without the instruction to raise its failure to
whoever asks for its result.  No wait changes this, and no wait takes the number
of a pipe back.
-/

structure StaysInPlace {α : Type} (machine : Machine) (pipeline : Pipeline) (waited : Waited α) :
    Prop where
  raises : waited.pipeline.raises = pipeline.raises
  pipes : machine.PipesStay waited.machine

/-- A wait leaves in place whether the pipeline raises its failure, and every pipe. -/
def LeavesInPlace {α : Type} (wait : Machine → Pipeline → Option (Waited α)) : Prop :=
  ∀ ⦃machine : Machine⦄ ⦃pipeline : Pipeline⦄ ⦃waited : Waited α⦄,
    wait machine pipeline = some waited → StaysInPlace machine pipeline waited

theorem LeavesInPlace.map {α β : Type} {wait : Machine → Pipeline → Option (Waited α)}
    (leaves : LeavesInPlace wait) {change : Waited α → Waited β}
    (raises : ∀ waited, (change waited).pipeline.raises = waited.pipeline.raises)
    (same : ∀ waited, (change waited).machine = waited.machine) :
    LeavesInPlace fun machine pipeline => (wait machine pipeline).map change := by
  intro machine pipeline waited answer
  obtain ⟨found, waits, rfl⟩ := Option.map_eq_some_iff.mp answer
  have stays := leaves waits
  exact ⟨(raises found).trans stays.raises, same found ▸ stays.pipes⟩

theorem raises_poll (machine : Machine) (pipeline : Pipeline) :
    (poll machine pipeline).2.raises = pipeline.raises := by
  unfold poll
  grind

theorem pipesStay_waitFor (answer : waitFor foreground rounds machine pipeline = some waited) :
    machine.PipesStay waited.machine := by
  induction rounds generalizing machine pipeline with
  | zero => cases answer
  | succ rounds ih =>
    have polls := pipesStay_poll machine pipeline
    rw [waitFor_succ] at answer
    dsimp only at answer
    split at answer
    · grind
    · split at answer
      · grind
      · split at answer
        · have lowered := Machine.pipesStay_setFlag (poll machine pipeline).1 Machine.sessionFlag
            false
          exact (polls.trans lowered).trans ((pipesStay_interrupt _ _).trans (ih answer))
        · obtain ⟨next, passes, answer⟩ := Option.bind_eq_some_iff.mp answer
          exact polls.trans ((Machine.pipesStay_passTime? passes).trans (ih answer))

theorem leavesInPlace_waitFor (foreground : Bool) (rounds : Nat) :
    LeavesInPlace (waitFor foreground rounds) := by
  intro machine pipeline waited answer
  refine ⟨?_, pipesStay_waitFor answer⟩
  refine waitFor_keeps (·.raises = pipeline.raises) (fun machine polled same => ?_)
    (fun _ _ same => same) rfl answer
  exact (raises_poll machine polled).trans same

theorem leavesInPlace_wait (rounds : Nat) : LeavesInPlace (wait rounds) :=
  (leavesInPlace_waitFor false rounds).map (fun _ => rfl) fun _ => rfl

theorem leavesInPlace_returncode (rounds : Nat) : LeavesInPlace (returncode rounds) := by
  refine (leavesInPlace_wait rounds).map (fun waited => ?_) fun waited => ?_ <;> split <;> rfl

theorem leavesInPlace_outputOf (rounds : Nat) : LeavesInPlace (outputOf rounds) := by
  refine (leavesInPlace_returncode rounds).map (fun waited => ?_) fun waited => ?_ <;> split <;> rfl

theorem leavesInPlace_errorsOf (rounds : Nat) : LeavesInPlace (errorsOf rounds) :=
  (leavesInPlace_wait rounds).map (fun _ => rfl) fun _ => rfl

theorem leavesInPlace_succeeded (rounds : Nat) : LeavesInPlace (succeeded rounds) :=
  (leavesInPlace_wait rounds).map (fun _ => rfl) fun _ => rfl

theorem staysInPlace_followLines {buffer : Nat} {reader : LineReader}
    {found : Waited (List Bytes)}
    (answer : followLines buffer rounds machine pipeline reader = some found) :
    StaysInPlace machine pipeline found := by
  induction rounds generalizing machine pipeline reader found with
  | zero => cases answer
  | succ rounds ih =>
    have polls := machine.pipesStay_settle.trans (pipesStay_poll machine.settle pipeline)
    simp only [followLines] at answer
    split at answer
    · cases answer
      exact ⟨raises_poll _ pipeline, polls⟩
    · split at answer
      · cases answer
      · next later passes =>
        obtain ⟨waited, follows, rfl⟩ := Option.map_eq_some_iff.mp answer
        obtain ⟨raises, pipes⟩ := ih follows
        exact ⟨raises.trans (raises_poll _ pipeline),
          polls.trans ((Machine.pipesStay_passTime? passes).trans pipes)⟩

theorem leavesInPlace_lines (rounds : Nat) : LeavesInPlace (lines rounds) := by
  intro machine pipeline waited answer
  unfold lines at answer
  split at answer
  · obtain ⟨found, follows, rfl⟩ := Option.map_eq_some_iff.mp answer
    obtain ⟨raises, pipes⟩ := staysInPlace_followLines follows
    exact ⟨raises, pipes⟩
  · refine (leavesInPlace_wait rounds).map (fun waited => ?_) (fun waited => ?_) answer
    · grind
    · rfl

theorem wait_cases {found : Waited (Except ProcessError Int)}
    (answer : wait rounds machine pipeline = some found) :
    (∃ code, found.result = .ok code) ∨ found.result = .error .interrupted := by
  obtain ⟨waited, waits, rfl⟩ := Option.map_eq_some_iff.mp answer
  rcases waitFor_cases waits with ⟨_, interrupted | ended⟩ | ⟨_, stopped, _⟩ <;> simp_all

/-- A pipeline that does not raise gives its output unless the wait is interrupted. -/
theorem outputOf_of_quiet {found : Waited (Except ProcessError String)}
    (quiet : pipeline.raises = false) (answer : outputOf rounds machine pipeline = some found) :
    (∃ text, found.result = .ok text) ∨ found.result = .error .interrupted := by
  obtain ⟨coded, asks, rfl⟩ := Option.map_eq_some_iff.mp answer
  obtain ⟨waited, waits, rfl⟩ := Option.map_eq_some_iff.mp asks
  have silent : waited.pipeline.raised? = none := by
    rw [raised?, (leavesInPlace_wait rounds waits).raises, quiet]
    rfl
  rw [silent]
  rcases wait_cases waits with ⟨code, ended⟩ | interrupted
  · simp [ended]
  · simp [interrupted]

/-! ### The failure of a pipeline -/

/-- The verdict, once it is settled, is about the outcome of the stage that decided. -/
def IsJudged (pipeline : Pipeline) : Prop :=
  ∀ verdict, pipeline.verdict = some verdict →
    verdict.returncode = Verdict.codeAt pipeline.outcomes verdict.deciding

theorem isJudged_of_none (unsettled : pipeline.verdict = none) : pipeline.IsJudged := by
  intro verdict settled
  simp_all

theorem codeAt_ofOutcomes (outcomes : List Outcome) (watched : Option Bool) :
    (Verdict.ofOutcomes outcomes watched).returncode =
      Verdict.codeAt outcomes (Verdict.ofOutcomes outcomes watched).deciding := by
  unfold Verdict.ofOutcomes
  grind

theorem isJudged_poll (judged : pipeline.IsJudged) : (poll machine pipeline).2.IsJudged := by
  unfold poll
  split
  · exact judged
  · have unsettled : pipeline.verdict = none := by simp_all [isDone]
    dsimp only
    split
    · intro verdict settled
      split at settled
      all_goals
        cases settled
        exact codeAt_ofOutcomes _ _
    · exact isJudged_of_none unsettled

/-- A wait in the foreground gives the code of the failure that the pipeline stands for. -/
theorem failure?_cases {code : Int} {error : ProcessError} (judged : pipeline.IsJudged)
    (given : pipeline.isDone = true → code = pipeline.returncode?.getD 0)
    (failed : pipeline.failure? = some error) :
    code ≠ 0 ∧ ((∃ command, error = .failed command code) ∨
      ∃ command signal, error = .signaled command signal ∧ code = -signal) := by
  obtain ⟨verdict, settled, stands⟩ := Option.bind_eq_some_iff.mp failed
  obtain rfl : code = verdict.returncode := by simp_all [returncode?, isDone]
  unfold Verdict.failure? at stands
  split at stands
  · cases stands
  · next nonzero =>
    refine ⟨nonzero, ?_⟩
    split at stands
    · next signal core decided =>
      cases stands
      refine .inr ⟨_, signal, rfl, ?_⟩
      rw [judged verdict settled, Verdict.codeAt, show pipeline.outcomes[verdict.deciding]? =
        some (.signaled signal core) from decided]
      rfl
    · grind

end Pipeline

end HybridShell
