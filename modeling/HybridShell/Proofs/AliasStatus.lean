import HybridShell.Proofs.CapturedOutput
import Mathlib.Algebra.Ring.Int.Defs

/-!
# The status of an alias

What an alias returns becomes the status of its stage.  An integer stands for
itself, but it has 64 bits and a status has 32 of them: a multiple of `2 ^ 32`
counts as true and is reported as success.
-/

namespace HybridShell

namespace Value

/-- What counts as false, and the integers of which a status keeps nothing. -/
def IsReportedAsSuccess (value : Value) : Prop :=
  value.truthy (fun _ => false) = false ∨ ∃ number, value = .int number ∧ 2 ^ 32 ∣ number.toInt

theorem lowWord_eq_zero_iff {number : Int64} : lowWord number = 0 ↔ 2 ^ 32 ∣ number.toInt := by
  have same : (number.toInt.bmod (Nat.pow 2 32)) % (2 ^ 32 : Int) = number.toInt % 2 ^ 32 :=
    Int.bmod_emod
  have lower : -(2 ^ 31) ≤ number.toInt.bmod (Nat.pow 2 32) := Int.le_bmod (by decide)
  have upper : number.toInt.bmod (Nat.pow 2 32) < 2 ^ 31 := Int.bmod_lt (by decide)
  rw [lowWord, wrapped]
  omega

theorem exitStatus_eq_zero_iff {value : Value} (plain : ∀ handle, value ≠ .pipeline handle)
    (succeeded : PipelineHandle → Bool) :
    value.exitStatus succeeded = 0 ↔ value.IsReportedAsSuccess := by
  have judged : (if value.truthy succeeded then (1 : Int) else 0) = 0 ↔
      value.truthy (fun _ => false) = false := by
    cases value with
    | pipeline handle => exact absurd rfl (plain handle)
    | _ => split <;> simp_all [truthy]
  cases value with
  | int number =>
    rw [exitStatus, lowWord_eq_zero_iff, IsReportedAsSuccess]
    constructor
    · exact fun divides => .inr ⟨number, rfl, divides⟩
    · rintro (isFalse | ⟨_, ⟨⟩, divides⟩)
      · simp_all [truthy]
      · exact divides
  | _ => simpa [IsReportedAsSuccess, exitStatus] using judged

end Value

namespace StageSpec

/-- The streams of code that a stage runs, and the shell in which the code starts. -/
def codeStart (plan : StagePlan) (streams : StageStreams) (shell : Shell) : HostStreams × Shell :=
  let machine :=
    if plan.error = .to .complaints then shell.machine.closeEndpoint streams.error
    else shell.machine
  let (output, _, prepared) := hostOutput machine plan.output streams.output
  (⟨if streams.input = .terminalInput then none else some streams.input, output⟩,
    { shell with machine := prepared })

variable {spec : StageSpec} {runner : NestedRunner} {code : NestedAlias} {plan : StagePlan}
  {streams : StageStreams} {shell after : Shell} {status : Int}

theorem runNested_eq_ended
    (ran : runner.run code spec.arguments (codeStart plan streams shell).1
      (codeStart plan streams shell).2 = some (.ok status, after)) :
    ∃ final, spec.runNested runner code plan streams shell =
      some (.ok (.ended (.exited status)), final) := by
  unfold codeStart at ran
  unfold runNested
  split at ran
  · next complains =>
    simp only [if_pos complains]
    exact ⟨_, Action.bind_eq_some_iff.mpr ⟨_, _, rfl, Action.bind_eq_some_iff.mpr ⟨_, _, rfl,
      Action.bind_eq_some_iff.mpr ⟨_, _, rfl, Action.bind_eq_some_iff.mpr ⟨_, _, ran, rfl⟩⟩⟩⟩⟩
  · next silent =>
    simp only [if_neg silent]
    exact ⟨_, Action.bind_eq_some_iff.mpr ⟨_, _, rfl, Action.bind_eq_some_iff.mpr ⟨_, _, rfl,
      Action.bind_eq_some_iff.mpr ⟨_, _, ran, rfl⟩⟩⟩⟩

end StageSpec

theorem Run.exitStatus_of_plain {value : Value} (plain : ∀ handle, value ≠ .pipeline handle)
    (rounds : Nat) (shell : Shell) :
    (Run.exitStatus rounds value).run shell =
      some (.ok (value.exitStatus fun _ => value.truthy fun _ => false), shell) := by
  cases value with
  | pipeline handle => exact absurd rfl (plain handle)
  | _ => rfl

theorem Call.nested_of_returned {inner : Interpreter} {code : NestedAlias} {arguments : List String}
    {streams : HostStreams} {shell after : Shell} {value : Value}
    (plain : ∀ handle, value ≠ .pipeline handle)
    (returned : (withStreams streams (nestedValue inner code arguments)).run shell =
      some (.ok value, after)) :
    nested inner code arguments streams shell =
      some (.ok (value.exitStatus fun _ => value.truthy fun _ => false), after) := by
  refine Action.bind_eq_some_iff.mpr ⟨_, _, returned, ?_⟩
  exact Action.bind_eq_some_iff.mpr ⟨_, _, Run.exitStatus_of_plain plain inner.rounds after, rfl⟩

/--
The stage of an alias that returns a value ends with status zero exactly when the value is false
or an integer whose low 32 bits are zero, be it code that is run as a stage or a callable that has
come to its end.
-/
theorem alias_status_is_zero_iff_nothing_is_kept (value : Value)
    (plain : ∀ handle, value ≠ .pipeline handle) :
    (∀ (inner : Interpreter) (spec : StageSpec) code plan streams shell after,
      (Call.withStreams (StageSpec.codeStart plan streams shell).1
          (Call.nestedValue inner code spec.arguments)).run
        (StageSpec.codeStart plan streams shell).2 = some (.ok value, after) →
      ∃ (outcome : Outcome) (final : Shell),
        spec.runNested (CommandRun.runner inner) code plan streams shell =
            some (.ok (.ended outcome), final) ∧
          (outcome.returncode = 0 ↔ value.IsReportedAsSuccess)) ∧
      ∀ name number machine task, ∃ outcome : Outcome,
        (Machine.runProgram number machine task
            ((Program.done (CallResult.value value)).bind (·.conclude name))).task.state =
          .ended outcome ∧
        (outcome.returncode = 0 ↔ value.IsReportedAsSuccess) := by
  constructor
  · intro inner spec code plan streams shell after returned
    have ran : (CommandRun.runner inner).run code spec.arguments
        (StageSpec.codeStart plan streams shell).1 (StageSpec.codeStart plan streams shell).2 = _ :=
      Call.nested_of_returned plain returned
    obtain ⟨final, ended⟩ := StageSpec.runNested_eq_ended ran
    exact ⟨_, final, ended, Value.exitStatus_eq_zero_iff plain _⟩
  · intro name number machine task
    exact ⟨.exited _, rfl, Value.exitStatus_eq_zero_iff plain _⟩

def returningCode (number : Int64) : NestedAlias :=
  .function ⟨0, 0, "f", [], [.returnValue (some (.int number))]⟩

theorem alias_status_is_zero_iff_nothing_is_kept_large :
    (∀ handle, Value.int 4294967299 ≠ .pipeline handle) ∧
      ∃ (outcome : Outcome) (final : Shell),
        (printingStage .standard).runNested (CommandRun.runner (.ofDepth 1 4))
            (returningCode 4294967299) ⟨.terminal, .to .terminalOutput, .to .terminalError⟩
            ⟨.terminalInput, .null, .null⟩ Shell.fresh =
          some (.ok (.ended outcome), final) ∧
        outcome.returncode ≠ 0 := by
  have plain : ∀ handle, Value.int 4294967299 ≠ .pipeline handle := nofun
  refine ⟨plain, ?_⟩
  obtain ⟨outcome, final, ended, zero⟩ := (alias_status_is_zero_iff_nothing_is_kept _ plain).1
    (.ofDepth 1 4) (printingStage .standard) (returningCode 4294967299) _ _ Shell.fresh _ rfl
  refine ⟨outcome, final, ended, mt zero.mp ?_⟩
  rintro (isFalse | ⟨_, ⟨⟩, divides⟩)
  · cases isFalse
  · exact absurd divides (by decide)

/-- An integer that counts as true, and the command that is run when the one before it fails. -/
theorem large_integer_is_reported_as_success :
    (Value.int 4294967296).truthy (fun _ => false) = true ∧
      ((Interpreter.ofDepth 1 8).source
        "def f() \x7b return 4294967296 \x7d\nalias('f', f)\ndef g() \x7b print('x') \x7d\nalias('g', g)\n$(f || g)" Shell.fresh).map
          (fun ended => ended.1.toOption.map (Value.text fun _ => "")) = some (some "") := by
  decide +kernel

end HybridShell
