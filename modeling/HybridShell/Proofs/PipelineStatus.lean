import HybridShell.Proofs.Waits

/-!
# The status of a settled pipeline

One stage lends a pipeline its status: the last one, or the leftmost one that
was killed when the last one stayed silent.  The return code, the failure, the
signal and the status of a shell are derived from it in different ways, and
all of them agree: it makes no difference whether a failure is raised or
returned.
-/

namespace HybridShell

/-- The stage was killed, for another reason than the lack of a reader. -/
def Outcome.IsKill (outcome : Outcome) : Prop :=
  ∃ signal core, outcome = .signaled signal core ∧ signal ≠ Signal.brokenPipe

theorem Outcome.isKilled_eq_true_iff {outcome : Outcome} :
    outcome.isKilled = true ↔ outcome.IsKill := by
  cases outcome with
  | exited code => simp [isKilled, IsKill]
  | signaled signal core => simp [isKilled, IsKill]

namespace Verdict

/-- The position of the stage that lends its status, given whether the last one was silent. -/
inductive Picks (outcomes : List Outcome) (silent : Prop) : Nat → Prop
  | killed (quiet : silent) (early : position + 1 < outcomes.length)
      (found : outcomes[position]? = some outcome) (kill : outcome.IsKill)
      (leftmost : ∀ before other, before < position → outcomes[before]? = some other →
        ¬ other.IsKill) :
      Picks outcomes silent position
  | last
      (others : silent → ∀ position outcome, position + 1 < outcomes.length →
        outcomes[position]? = some outcome → ¬ outcome.IsKill) :
      Picks outcomes silent (outcomes.length - 1)

variable {outcomes : List Outcome} {silent : Prop} {position : Nat}

theorem Picks.lt_length (picks : Picks outcomes silent position) (filled : outcomes ≠ []) :
    position < outcomes.length := by
  have := List.length_pos_iff.2 filled
  cases picks with
  | killed quiet early found kill leftmost => omega
  | last others => omega

theorem Picks.congr {other : Prop} (same : silent ↔ other) (picks : Picks outcomes silent position) :
    Picks outcomes other position := by
  rwa [← propext same]

/-- The leftmost stage before the last one that was killed, where there is one. -/
theorem picks_of_findIdx? (quiet : silent)
    (found : (outcomes.take (outcomes.length - 1)).findIdx? Outcome.isKilled = some position) :
    Picks outcomes silent position := by
  obtain ⟨inside, kill, leftmost⟩ := List.findIdx?_eq_some_iff_getElem.1 found
  have early : position < outcomes.length - 1 := by grind
  rw [List.getElem_take] at kill
  refine .killed quiet (by omega) (List.getElem?_eq_getElem (by omega))
    (Outcome.isKilled_eq_true_iff.1 kill) ?_
  intro before other earlier present isKill
  have alive := leftmost before earlier
  rw [List.getElem_take] at alive
  obtain ⟨_, same⟩ := List.getElem?_eq_some_iff.1 present
  rw [same, Outcome.isKilled_eq_true_iff] at alive
  exact alive isKill

theorem not_isKill_of_findIdx? {outcome : Outcome}
    (missing : (outcomes.take (outcomes.length - 1)).findIdx? Outcome.isKilled = none)
    (early : position + 1 < outcomes.length) (present : outcomes[position]? = some outcome) :
    ¬ outcome.IsKill := by
  have among : outcome ∈ outcomes.take (outcomes.length - 1) := by grind [List.mem_take_iff_getElem]
  grind [Outcome.isKilled_eq_true_iff]

theorem picks_ofOutcomes (outcomes : List Outcome) (watched : Option Bool) :
    Picks outcomes (isSilent (codeAt outcomes (outcomes.length - 1)) watched = true)
      (ofOutcomes outcomes watched).deciding := by
  unfold ofOutcomes
  dsimp only
  split
  · next quiet =>
    split
    · next position found => exact picks_of_findIdx? quiet found
    · next missing =>
      exact .last fun _ position outcome early present =>
        not_isKill_of_findIdx? missing early present
  · next loud => exact .last fun quiet => absurd quiet loud

end Verdict

namespace Pipeline

variable {machine : Machine} {pipeline : Pipeline}

/-- The last stage added nothing to its output where it is watched, or else ended well. -/
def LastIsSilent (machine : Machine) (pipeline : Pipeline) : Prop :=
  match pipeline.observed with
  | some seen => (machine.buffer seen.buffer).total = seen.base
  | none => pipeline.outcomes.getLast?.map Outcome.returncode = some 0

theorem isSilent_iff (filled : pipeline.outcomes ≠ []) :
    Verdict.isSilent (Verdict.codeAt pipeline.outcomes (pipeline.outcomes.length - 1))
        (pipeline.isSilent? machine) = true ↔
      pipeline.LastIsSilent machine := by
  unfold LastIsSilent isSilent? Verdict.isSilent Verdict.codeAt
  cases pipeline.observed with
  | some seen => simp
  | none =>
    rw [← List.getLast?_eq_getElem?, List.getLast?_eq_some_getLast filled]
    simp

/-- The verdict is the one on the outcomes, with the output as the machine shows it. -/
def IsSettled (machine : Machine) (pipeline : Pipeline) : Prop :=
  pipeline.verdict = some (.ofOutcomes pipeline.outcomes (pipeline.isSilent? machine))

theorem isSettled_poll (running : pipeline.verdict = none)
    (done : (poll machine pipeline).2.isDone = true) :
    IsSettled machine.settle (poll machine pipeline).2 := by
  have unsettled : ¬ pipeline.isDone = true := by simp [isDone, running]
  unfold poll at done ⊢
  rw [if_neg unsettled] at done ⊢
  dsimp only at done ⊢
  split
  · split <;> rfl
  · next unfinished =>
    rw [if_neg unfinished] at done
    exact absurd done unsettled

/-- The stage that a settled pipeline takes its status from. -/
theorem exists_picked (filled : pipeline.outcomes ≠ []) (settled : pipeline.IsSettled machine) :
    ∃ position outcome,
      Verdict.Picks pipeline.outcomes (pipeline.LastIsSilent machine) position ∧
        pipeline.outcomes[position]? = some outcome ∧
        pipeline.verdict = some ⟨outcome.returncode, position⟩ := by
  have picks := Verdict.picks_ofOutcomes pipeline.outcomes (pipeline.isSilent? machine)
  have judged := codeAt_ofOutcomes pipeline.outcomes (pipeline.isSilent? machine)
  rw [IsSettled] at settled
  generalize Verdict.ofOutcomes pipeline.outcomes (pipeline.isSilent? machine) = verdict at *
  obtain ⟨code, position⟩ := verdict
  have found := List.getElem?_eq_getElem (picks.lt_length filled)
  refine ⟨position, _, picks.congr (isSilent_iff filled), found, ?_⟩
  simp_all [Verdict.codeAt]

end Pipeline

namespace Outcome

def HasNumber : Outcome → Prop
  | exited _ => True
  | signaled signal _ => 0 < signal

instance : DecidablePred HasNumber
  | exited _ => inferInstanceAs (Decidable True)
  | signaled signal _ => inferInstanceAs (Decidable (0 < signal))

def failure? (command : String) : Outcome → Option ProcessError
  | exited code => if code = 0 then none else some (.failed command code)
  | signaled signal _ => if signal = 0 then none else some (.signaled command signal)

variable {outcome : Outcome} {command : String}

theorem failure?_isSome_iff : (outcome.failure? command).isSome ↔ outcome.returncode ≠ 0 := by
  cases outcome with
  | exited code => by_cases zero : code = 0 <;> simp [failure?, returncode, zero]
  | signaled signal core => by_cases zero : signal = 0 <;> simp [failure?, returncode, zero]

theorem failure?_signaled_iff (numbered : outcome.HasNumber) :
    (∃ named signal, outcome.failure? command = some (.signaled named signal)) ↔
      outcome.signal?.isSome := by
  cases outcome with
  | exited code => by_cases zero : code = 0 <;> simp [failure?, signal?, zero]
  | signaled signal core =>
    have nonzero : signal ≠ 0 := Int.ne_of_gt numbered
    simp [failure?, signal?, nonzero]

theorem exitCode_of_failure? {error : ProcessError} (numbered : outcome.HasNumber)
    (fails : outcome.failure? command = some error) :
    error.exitCode = shellExitCode outcome.returncode := by
  cases outcome with
  | exited code =>
    obtain ⟨_, rfl⟩ : code ≠ 0 ∧ .failed command code = error := by simpa [failure?] using fails
    rfl
  | signaled signal core =>
    obtain ⟨_, rfl⟩ : signal ≠ 0 ∧ .signaled command signal = error := by
      simpa [failure?] using fails
    have positive : 0 < signal := numbered
    have negative : -signal < 0 := by omega
    rw [ProcessError.exitCode, returncode, shellExitCode, if_pos negative, Int.sub_neg]

end Outcome

namespace Pipeline

variable {machine : Machine} {pipeline : Pipeline} {position : Nat} {outcome : Outcome}

/-- The status that the caller of a pipeline sees, whether it is given a code or a failure. -/
def statusSeen : Except ProcessError Int → Int
  | .ok code => shellExitCode code
  | .error error => error.exitCode

theorem failure?_eq (found : pipeline.outcomes[position]? = some outcome)
    (settled : pipeline.verdict = some ⟨outcome.returncode, position⟩) :
    pipeline.failure? = outcome.failure? pipeline.executedCommand := by
  rw [failure?, settled, Option.bind_some, Verdict.failure?, Verdict.outcome?, found]
  cases outcome with
  | exited code => rfl
  | signaled signal core => simp [Outcome.failure?, Outcome.returncode]

theorem signal?_eq (found : pipeline.outcomes[position]? = some outcome)
    (settled : pipeline.verdict = some ⟨outcome.returncode, position⟩) :
    pipeline.signal? = outcome.signal? := by
  rw [signal?, decidingOutcome?, settled, Option.bind_some, Verdict.outcome?, found,
    Option.bind_some]

/-- Asking a settled pipeline for its code takes no time, and fails only if it raises. -/
theorem returncode_of_settled {verdict : Verdict} (settled : pipeline.verdict = some verdict)
    (undisturbed : pipeline.interruptPending = false) (rounds : Nat) (machine : Machine) :
    returncode (rounds + 1) machine pipeline =
      some ⟨machine, pipeline,
        pipeline.raised?.elim (.ok verdict.returncode) Except.error⟩ := by
  have done : pipeline.isDone = true := by simp [isDone, settled]
  have waits : wait (rounds + 1) machine pipeline =
      some ⟨machine, pipeline, .ok verdict.returncode⟩ := by
    rw [wait, waitFor_succ]
    simp [poll_of_isDone done, done, undisturbed, returncode?, settled]
  rw [returncode, waits]
  cases raises : pipeline.raised? <;> simp [raises]

/-- The status is the same whether the failure is raised or the code is returned. -/
theorem statusSeen_of_settled (numbered : outcome.HasNumber)
    (found : pipeline.outcomes[position]? = some outcome)
    (settled : pipeline.verdict = some ⟨outcome.returncode, position⟩) :
    statusSeen (pipeline.raised?.elim (.ok outcome.returncode) Except.error) =
      shellExitCode outcome.returncode := by
  cases raises : pipeline.raised? with
  | none => rfl
  | some error =>
    have fails : pipeline.failure? = some error := by simp_all [raised?]
    rw [failure?_eq found settled] at fails
    exact Outcome.exitCode_of_failure? numbered fails

end Pipeline

open Pipeline in
/--
A settled pipeline has the status of one of its stages.  This is the last one,
unless that was silent and an earlier one was killed; then it is the leftmost
such.  The return code is that of the stage, the pipeline fails just when it
is not zero, and the failure is a death by signal just when the pipeline names
a signal.  The status of the failure is that of the return code, so that a
caller sees the same status whether the pipeline raises or not.
-/
theorem status_is_that_of_the_picked_stage (machine : Machine) (pipeline : Pipeline)
    (filled : pipeline.stages ≠ []) (settled : pipeline.IsSettled machine)
    (numbered : ∀ outcome ∈ pipeline.outcomes, outcome.HasNumber) :
    ∃ position outcome,
      Verdict.Picks pipeline.outcomes (pipeline.LastIsSilent machine) position ∧
        pipeline.outcomes[position]? = some outcome ∧
        pipeline.verdict = some ⟨outcome.returncode, position⟩ ∧
        pipeline.returncode? = some outcome.returncode ∧
        (∀ only, pipeline.outcomes = [only] → outcome = only) ∧
        (pipeline.failure?.isSome ↔ outcome.returncode ≠ 0) ∧
        ((∃ command signal, pipeline.failure? = some (.signaled command signal)) ↔
          pipeline.signal?.isSome) ∧
        (∀ error, pipeline.failure? = some error →
          error.exitCode = shellExitCode outcome.returncode) ∧
        ∀ raises rounds later, ∃ result,
          returncode (rounds + 1) later { pipeline with raises, interruptPending := false } =
              some ⟨later, { pipeline with raises, interruptPending := false }, result⟩ ∧
            statusSeen result = shellExitCode outcome.returncode := by
  have outcomesFilled : pipeline.outcomes ≠ [] := by simpa [outcomes] using filled
  obtain ⟨position, outcome, picks, found, verdict⟩ := exists_picked outcomesFilled settled
  have hasNumber := numbered outcome (List.mem_of_getElem? found)
  have failure := failure?_eq found verdict
  refine ⟨position, outcome, picks, found, verdict, ?_, ?_, ?_, ?_, ?_, ?_⟩
  · rw [returncode?, verdict]
    rfl
  · -- With one stage there is nothing to pick from.
    intro only single
    have := picks.lt_length outcomesFilled
    rw [single] at found this
    obtain rfl : position = 0 := by simpa using this
    exact (Option.some.inj found).symm
  · rw [failure, Outcome.failure?_isSome_iff]
  · rw [failure, signal?_eq found verdict]
    exact Outcome.failure?_signaled_iff hasNumber
  · intro error fails
    exact Outcome.exitCode_of_failure? hasNumber (failure ▸ fails)
  · intro raises rounds later
    -- How the pipeline reports a failure has no part in its verdict.
    let asked : Pipeline := { pipeline with raises, interruptPending := false }
    have askedVerdict : asked.verdict = some ⟨outcome.returncode, position⟩ := verdict
    have askedFound : asked.outcomes[position]? = some outcome := found
    exact ⟨_, returncode_of_settled askedVerdict rfl rounds later,
      statusSeen_of_settled hasNumber askedFound askedVerdict⟩

/-- A pipeline whose first two stages were killed and whose last one ended well. -/
def brokenProducer : Pipeline :=
  { arguments := [["yes"], ["sort"], ["cat"]]
    aliases := [none, none, none]
    capture := .hidden
    background := false
    group := none
    output := none
    errors := none
    observed := none
    flag := 0
    interruptPending := false
    raises := true
    stages := [.ended (.signaled 13 false), .ended (.signaled 15 false), .ended (.exited 0)]
    verdict := none
    outputText := none
    started := 0
    ended := none }

/-- The broken pipe does not count, so the second stage decides. -/
theorem status_is_that_of_the_picked_stage_brokenProducer :
    (∀ outcome ∈ (Pipeline.poll (.start ⟨∅, "/"⟩ []) brokenProducer).2.outcomes,
        outcome.HasNumber) ∧
      ∃ error, (Pipeline.poll (.start ⟨∅, "/"⟩ []) brokenProducer).2.failure? = some error ∧
        error.exitCode = 143 := by
  have numbered : ∀ outcome ∈ (Pipeline.poll (.start ⟨∅, "/"⟩ []) brokenProducer).2.outcomes,
      outcome.HasNumber := by decide
  obtain ⟨_, outcome, _, _, _, code, _, fails, _, status, _⟩ :=
    status_is_that_of_the_picked_stage _ (Pipeline.poll (.start ⟨∅, "/"⟩ []) brokenProducer).2
      (by decide) (Pipeline.isSettled_poll rfl rfl) numbered
  have returned : -15 = outcome.returncode := Option.some.inj code
  rw [← returned] at fails status
  obtain ⟨error, failed⟩ := Option.isSome_iff_exists.1 (fails.2 (by decide))
  exact ⟨numbered, error, failed, status error failed⟩

end HybridShell
