import HybridShell.Proofs.LoopEnds
import HybridShell.Proofs.RecursionLimit

/-!
# Loop ends that leave calls

A call turns the end of its body by `return` into a value, and passes every
other early end on.  So a `break` that finds no loop in the body of a function
ends a loop of the caller.  That takes stray code, in the body of a function or
in a file: a call that runs none never ends a loop of its caller.

That a run never runs some code is stated through its answers: they are the
same whatever other run stands for that code.
-/

namespace HybridShell

variable {α : Type}

/--
Whether the code ends loops that are not its own.  The code of an alias runs as
a stage of a pipeline, and ends none.
-/
def HostCode.strays : HostCode → Bool
  | function _ body => Straying.block body
  | fileText text => (parseUnit text).toOption.any Straying.block
  | aliasText _ => false

theorem HostCode.straying_of_fileText {text : String} (stays : strays (.fileText text) = false)
    {unit : List Statement} (read : parseUnit text = .ok unit) :
    Straying.block unit = false := by
  rw [strays, read] at stays
  exact stays

namespace Interpreter

def exchanging (inner : Interpreter) (taken : HostCode → Bool) (other : HostCode → Run Value) :
    Interpreter :=
  { inner with host := fun code => if taken code then other code else inner.host code }

/-- An interpreter that goes some layers deep, with other runs for some code at every layer. -/
def exchanged (taken : HostCode → Bool) (other : HostCode → Run Value) (rounds : Nat) :
    Nat → Interpreter
  | 0 => silent.exchanging taken other
  | depth + 1 => (above rounds (exchanged taken other rounds depth)).exchanging taken other

/-- No answer depends on what some code does: the run never comes to that code. -/
def NeverRuns (taken : HostCode → Bool) (rounds depth : Nat) (run : Interpreter → Run α)
    (before : Shell) : Prop :=
  ∀ other, run (exchanged taken other rounds depth) before = run (ofDepth rounds depth) before

/-- Without stray code, only blocks that stray themselves end loops that are not their own. -/
theorem contained_exchanged (rounds depth : Nat) :
    (exchanged HostCode.strays (fun _ => Run.exhausted) rounds depth).Contained := by
  have hosts {inner : Interpreter} (code : HostCode)
      (contained : code.strays = false → Run.Contained (inner.host code)) :
      Run.Contained ((inner.exchanging HostCode.strays fun _ => Run.exhausted).host code) := by
    unfold exchanging
    dsimp only
    split
    · exact .exhausted
    · next stays => exact contained (Bool.eq_false_iff.mpr stays)
  induction depth with
  | zero =>
    exact
      { expression := fun _ => .exhausted
        captured := fun _ => .exhausted
        block := fun _ => .exhausted
        repeatWhile := fun _ _ => .exhausted
        function := fun _ _ => hosts _ fun _ => .exhausted
        file := fun _ => hosts _ fun _ => .exhausted }
  | succ depth ih =>
    have parts := ih.alike
    exact
      { expression := ExpressionRun.alike_evaluate parts
        captured := CommandRun.alike_captured parts
        block := fun stays => StatementRun.alike_block parts (Run.Likeness.fits_of_stays stays)
        repeatWhile := StatementRun.alike_repeatWhile parts
        function := fun unit body => hosts _ fun stays =>
          Call.contained_inUnit unit
            (Call.contained_bodyValue (StatementRun.alike_block parts (Run.Likeness.fits_of_stays stays)))
        file := fun text => hosts _ fun stays =>
          StatementRun.alike_source parts fun _ read =>
            Run.Likeness.fits_of_stays (HostCode.straying_of_fileText stays read) }

theorem NeverRuns.not_endsRound {run : Interpreter → Run α} {rounds depth : Nat}
    {before after : Shell} {signal : EvalError}
    (never : NeverRuns HostCode.strays rounds depth run before)
    (contained : Run.Contained
      (run (exchanged HostCode.strays (fun _ => Run.exhausted) rounds depth)))
    (isEnd : signal.endsRound = true) :
    run (ofDepth rounds depth) before ≠ some (.error signal, after) := by
  intro answer
  have other := contained ((never fun _ => Run.exhausted).trans answer)
  exact Bool.false_ne_true (other.symm.trans isEnd)

/-- Running a function is running its body as part of the unit of its definition. -/
theorem host_function (rounds depth unit : Nat) (body : List Statement) :
    (ofDepth rounds depth).host (.function unit body) =
      Call.inUnit unit (Call.bodyValue ((ofDepth rounds depth).block body)) := by
  cases depth with
  | zero => rfl
  | succ depth => rfl

end Interpreter

namespace Call

variable {before after : Shell}

theorem bodyValue_eq_error_iff {body : Run Unit} {error : EvalError}
    (isEnd : error.endsRound = true) :
    bodyValue body before = some (.error error, after) ↔
      body before = some (.error error, after) := by
  constructor
  · intro answer
    obtain ⟨found, middle, runs, same⟩ := Action.bind_eq_some_iff.mp answer
    split at same
    · cases same
    · cases same
    · cases same
      exact runs
  · intro runs
    refine Action.bind_eq_some_iff.mpr ⟨.error error, after, runs, ?_⟩
    cases error with
    | leftLoop | nextRound => rfl
    | _ => cases isEnd

theorem inUnit_eq_some_iff {body : Run α} {unit : Nat} {result : Except EvalError α} :
    inUnit unit body before = some (result, after) ↔
      ∃ left, body { before with unit } = some (result, left) ∧
        { left with unit := before.unit } = after :=
  Run.andFinally_eq_some_iff

def entered (called : Function) (arguments : List Value) (shell : Shell) : Shell :=
  { shell with
    frames := ⟨called.name, .ofList (called.parameters.zip arguments)⟩ :: shell.frames
    unit := called.unit }

theorem function_eq_error_iff {rounds depth : Nat} {called : Function} {arguments : List Value}
    {signal : EvalError} (isEnd : signal.endsRound = true) :
    function (.ofDepth rounds depth) called arguments before = some (.error signal, after) ↔
      arguments.length = called.parameters.length ∧
      before.frames.length < before.recursionLimit ∧
      ∃ left, (Interpreter.ofDepth rounds depth).block called.body
          (entered called arguments before) = some (.error signal, left) ∧
        { left with unit := before.unit, frames := left.frames.tail } = after := by
  unfold function
  split
  · next differ =>
    constructor
    · intro answer
      cases answer
      cases isEnd
    · omega
  · next fits =>
    change (Run.inFrame _ _ _).run before = _ ↔ _
    rw [Run.inFrame_run, Interpreter.host_function]
    split
    · next full =>
      constructor
      · intro answer
        cases answer
        cases isEnd
      · rintro ⟨_, room, _⟩
        exact absurd full (Nat.not_le_of_lt room)
    · next room =>
      constructor
      · intro answer
        obtain ⟨middle, runs, rfl⟩ := Run.andFinally_eq_some_iff.mp answer
        obtain ⟨left, body, rfl⟩ := inUnit_eq_some_iff.mp runs
        exact ⟨Decidable.not_not.mp fits, Nat.lt_of_not_le room, left,
          (bodyValue_eq_error_iff isEnd).mp body, rfl⟩
      · rintro ⟨_, _, left, body, rfl⟩
        refine Run.andFinally_eq_some_iff.mpr ⟨{ left with unit := before.unit }, ?_, rfl⟩
        exact inUnit_eq_some_iff.mpr ⟨left, (bodyValue_eq_error_iff isEnd).mpr body, rfl⟩

end Call

/--
A call ends a loop of its caller just if its body ends a loop that is not its
own.  A call that never runs stray code ends none; and where no stray code runs,
a block without a stray `break` or `continue` ends none.
-/
theorem call_ends_loop_of_its_caller_iff_its_body_ends_one (rounds depth : Nat)
    (before after : Shell) {signal : EvalError} (isEnd : signal.endsRound = true) :
    (∀ (called : Function) (arguments : List Value),
      (Call.function (.ofDepth rounds depth) called arguments before =
          some (.error signal, after) ↔
        arguments.length = called.parameters.length ∧
        before.frames.length < before.recursionLimit ∧
        ∃ left, (Interpreter.ofDepth rounds depth).block called.body
            (Call.entered called arguments before) = some (.error signal, left) ∧
          { left with unit := before.unit, frames := left.frames.tail } = after) ∧
      (Interpreter.NeverRuns HostCode.strays rounds depth (Call.function · called arguments)
          before →
        Call.function (.ofDepth rounds depth) called arguments before ≠
          some (.error signal, after))) ∧
    ∀ body : List Statement, Straying.block body = false →
      Interpreter.NeverRuns HostCode.strays rounds depth (·.block body) before →
      (Interpreter.ofDepth rounds depth).block body before ≠ some (.error signal, after) := by
  have contained := Interpreter.contained_exchanged rounds depth
  refine ⟨fun called arguments => ⟨Call.function_eq_error_iff isEnd, fun never => ?_⟩,
    fun body stays never => ?_⟩
  · exact never.not_endsRound (Call.contained_function contained called arguments) isEnd
  · exact never.not_endsRound (contained.block stays) isEnd

def leavingItsLoop : Function :=
  ⟨0, 0, "f", [], [.whileLoop (.bool true) [.breakLoop]]⟩

def leavingNoLoop : Function :=
  ⟨0, 0, "f", [], [.breakLoop]⟩

namespace Interpreter

variable {taken : HostCode → Bool} {other : HostCode → Run Value} {rounds depth : Nat}

theorem exchanged_rounds :
    (exchanged taken other rounds depth).rounds = (ofDepth rounds depth).rounds := by
  cases depth with
  | zero => rfl
  | succ depth => rfl

theorem exchanged_repeatWhile_breakLoop :
    (exchanged taken other rounds depth).repeatWhile (.bool true) [.breakLoop] =
      (ofDepth rounds depth).repeatWhile (.bool true) [.breakLoop] := by
  have condition (depth : Nat) : (exchanged taken other rounds depth).expression (.bool true) =
      (ofDepth rounds depth).expression (.bool true) := by
    cases depth with
    | zero => rfl
    | succ depth => rfl
  have body (depth : Nat) : (exchanged taken other rounds depth).block [.breakLoop] =
      (ofDepth rounds depth).block [.breakLoop] := by
    cases depth with
    | zero => rfl
    | succ depth => rfl
  induction depth with
  | zero => rfl
  | succ depth ih =>
    change StatementRun.repeatWhile _ _ _ = StatementRun.repeatWhile _ _ _
    simp only [StatementRun.repeatWhile, StatementRun.round, exchanged_rounds, condition, body,
      ih]

theorem neverRuns_leavingItsLoop (before : Shell) :
    NeverRuns HostCode.strays rounds depth (Call.function · leavingItsLoop []) before := by
  intro other
  have host :
      (exchanged HostCode.strays other rounds depth).host (.function 0 leavingItsLoop.body) =
        (ofDepth rounds depth).host (.function 0 leavingItsLoop.body) := by
    cases depth with
    | zero => rfl
    | succ depth =>
      change Call.inUnit 0 (Call.bodyValue (StatementRun.block _ leavingItsLoop.body)) =
        Call.inUnit 0 (Call.bodyValue (StatementRun.block _ leavingItsLoop.body))
      simp only [leavingItsLoop, StatementRun.block, StatementRun.statement,
        exchanged_repeatWhile_breakLoop]
  exact congrArg (fun run => Run.inFrame "f" (.ofList []) run before) host

end Interpreter

/-- A function that leaves its own loop returns, and ends no other loop at any depth. -/
theorem call_ends_loop_of_its_caller_iff_its_body_ends_one_own :
    (∀ depth after,
      Call.function (.ofDepth 1 depth) leavingItsLoop [] Shell.fresh ≠
        some (.error .leftLoop, after)) ∧
      (Call.function (.ofDepth 1 4) leavingItsLoop [] Shell.fresh).map (·.1.toOption.isSome) =
        some true := by
  refine ⟨fun depth after => ?_, by decide +kernel⟩
  have ends := call_ends_loop_of_its_caller_iff_its_body_ends_one 1 depth Shell.fresh after
    (show EvalError.leftLoop.endsRound = true from rfl)
  exact (ends.1 leavingItsLoop []).2 (Interpreter.neverRuns_leavingItsLoop Shell.fresh)

/-- A `break` in a function without a loop ends the loop that calls the function. -/
theorem called_break_ends_the_loop_of_the_caller :
    Call.function (.ofDepth 1 2) leavingNoLoop [] Shell.fresh =
        some (.error .leftLoop, Shell.fresh) ∧
      ((Interpreter.ofDepth 1 8).source
        "def f() \x7b break \x7d\nn = 0\nfor i in range(3) \x7b n = n + 1\nf() \x7d\nn" Shell.fresh).map
          (fun ended => ended.1.toOption.map (Value.text fun _ => "")) = some (some "1") := by
  refine ⟨rfl, by decide +kernel⟩

end HybridShell
