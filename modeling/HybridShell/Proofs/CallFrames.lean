import HybridShell.Proofs.Layers

/-!
# Calls restore the shell

Code of the program can change the variables of the latest call, and nothing
else of the calls that have not returned.  Every layer of an interpreter keeps
to this if the layer below does.  A call adds a frame, runs its body and drops
the frame, so all calls are afterwards as they were before.
-/

namespace HybridShell

namespace Shell

/-- The latest call may have other variables; the calls are otherwise the same. -/
structure SameCalls (before after : Shell) : Prop where
  outer : after.frames.tail = before.frames.tail
  latest : after.frames.head?.map Frame.name = before.frames.head?.map Frame.name

/-- All calls are the same, with the same variables. -/
def SameFrames (before after : Shell) : Prop :=
  after.frames = before.frames

/-- What an alias finds around it is the same. -/
structure SameSurroundings (before after : Shell) : Prop where
  frames : after.frames = before.frames
  output : after.outputOverride = before.outputOverride
  input : after.inputOverride = before.inputOverride
  returncode : after.lastReturncode = before.lastReturncode

instance : AllowsPipelines SameCalls where
  refl _ := ⟨rfl, rfl⟩
  trans _ _ _ first second :=
    ⟨second.outer.trans first.outer, second.latest.trans first.latest⟩
  outside _ _ _ _ _ := ⟨rfl, rfl⟩
  pipelines _ _ _ _ _ := ⟨rfl, rfl⟩

instance : AllowsPipelines SameFrames where
  refl _ := rfl
  trans _ _ _ first second := second.trans first
  outside _ _ _ _ _ := rfl
  pipelines _ _ _ _ _ := rfl

instance : AllowsPipelines SameSurroundings where
  refl _ := ⟨rfl, rfl, rfl, rfl⟩
  trans _ _ _ first second :=
    ⟨second.frames.trans first.frames, second.output.trans first.output,
      second.input.trans first.input, second.returncode.trans first.returncode⟩
  outside _ _ _ _ _ := ⟨rfl, rfl, rfl, rfl⟩
  pipelines _ _ _ _ _ := ⟨rfl, rfl, rfl, rfl⟩

variable {before after : Shell}

theorem SameFrames.sameCalls (same : SameFrames before after) : SameCalls before after :=
  ⟨congrArg List.tail same, congrArg (fun frames => frames.head?.map Frame.name) same⟩

theorem SameCalls.length_eq (same : SameCalls before after) :
    after.frames.length = before.frames.length := by
  obtain ⟨outer, latest⟩ := same
  cases first : before.frames with
  | nil => cases second : after.frames <;> simp_all
  | cons _ _ => cases second : after.frames <;> simp_all

theorem sameCalls_setVariable (shell : Shell) (name : String) (value : Value) :
    SameCalls shell (shell.setVariable name value) := by
  unfold setVariable
  split
  · exact ⟨rfl, rfl⟩
  · next frame rest frames => exact ⟨by rw [frames]; rfl, by rw [frames]; rfl⟩

end Shell

open Shell

/-! ### Calls -/

variable {α : Type}

namespace Run

theorem sameFrames_inFrame {body : Run α} (name : String) (locals : Dictionary Value)
    (runs : Keeps SameCalls body) : Keeps SameFrames (inFrame name locals body) := by
  refine .get_bind fun before after result answer => ?_
  split at answer
  · cases answer
    rfl
  · obtain ⟨middle, ran, rfl⟩ := andFinally_eq_some_iff.mp answer
    exact (runs ran).outer

/-- The calls are put aside, so they are the same whatever is done in the meantime. -/
theorem sameFrames_outsideCalls (body : Run α) : Keeps SameFrames (outsideCalls body) := by
  refine .get_bind fun before after result answer => ?_
  obtain ⟨middle, _, rfl⟩ := andFinally_eq_some_iff.mp answer
  rfl

end Run

instance : AllowsCode SameCalls where
  surroundings _ _ _ _ _ _ := ⟨rfl, rfl⟩
  assignment := sameCalls_setVariable
  inFrame name locals runs := (Run.sameFrames_inFrame name locals runs).mono SameFrames.sameCalls
  outsideCalls _ := (Run.sameFrames_outsideCalls _).mono SameFrames.sameCalls

namespace Call

variable {inner : Interpreter}

theorem sameFrames_function (keeps : inner.Agree (.everywhere SameCalls) inner)
    (called : Function) (arguments : List Value) :
    Run.Keeps SameFrames (Call.function inner called arguments) := by
  refine .ite_bind (.throw _) ?_
  exact Run.sameFrames_inFrame _ _ (keeps.function called.unit called.body).keeps

theorem sameFrames_sourceAlias (keeps : inner.Agree (.everywhere SameCalls) inner)
    (text : String) (arguments : List String) :
    Run.Keeps SameFrames (sourceAlias inner text arguments) := by
  refine Run.sameFrames_inFrame _ _ ?_
  exact .bind (keeps.aliasText text).keeps fun _ => .bind .get fun _ => .pure _

theorem sameFrames_nestedValue (keeps : inner.Agree (.everywhere SameCalls) inner)
    (code : NestedAlias) (arguments : List String) :
    Run.Keeps SameFrames (nestedValue inner code arguments) := by
  cases code with
  | source text => exact sameFrames_sourceAlias keeps text arguments
  | function called => exact sameFrames_function keeps called _

theorem sameSurroundings_withStreams {body : Run α} (streams : HostStreams)
    (runs : Run.Keeps SameFrames body) :
    Run.Keeps SameSurroundings (withStreams streams body) := by
  refine .get_bind fun before after result answer => ?_
  obtain ⟨middle, ran, rfl⟩ := Run.andFinally_eq_some_iff.mp answer
  have kept := runs ran
  exact ⟨kept, rfl, rfl, rfl⟩

theorem sameSurroundings_nested (keeps : inner.Agree (.everywhere SameCalls) inner)
    (code : NestedAlias) (arguments : List String) (streams : HostStreams) :
    Action.Keeps SameSurroundings (nested inner code arguments streams) :=
  .bind (sameSurroundings_withStreams streams (sameFrames_nestedValue keeps code arguments))
    fun found => keeps_nestedStatus inner.rounds _ found

end Call

/--
A call of a function leaves the calls as they were, however it ends.  Code that
runs as an alias leaves also the streams and the last status as they were.
-/
theorem calls_restore_the_shell (rounds depth : Nat) (before after : Shell) :
    (∀ (called : Function) (arguments : List Value) (result : Except EvalError Value),
      Call.function (.ofDepth rounds depth) called arguments before = some (result, after) →
        after.frames = before.frames) ∧
    (∀ (code : NestedAlias) (arguments : List String) (streams : HostStreams)
        (result : Except ProcessError Int),
      Call.nested (.ofDepth rounds depth) code arguments streams before = some (result, after) →
        after.frames = before.frames ∧ after.outputOverride = before.outputOverride ∧
          after.inputOverride = before.inputOverride ∧
          after.lastReturncode = before.lastReturncode) := by
  have keeps := Interpreter.agree_ofDepth SameCalls rounds depth
  constructor
  · intro called arguments result answer
    exact Call.sameFrames_function keeps called arguments answer
  · intro code arguments streams result answer
    have same := Call.sameSurroundings_nested keeps code arguments streams answer
    exact ⟨same.frames, same.output, same.input, same.returncode⟩

def callingShell : Shell :=
  { Shell.start (.start ⟨∅, "/"⟩ []) (.start "/" ∅ false) with
    frames := [⟨"outer", .ofList [("x", .int 1)]⟩] }

/-- A function that sets its own "x" and ends early. -/
def leavingFunction : Function :=
  ⟨0, 0, "leave", ["x"], [.simple (.assign (.name "x") (.int 2)), .breakLoop]⟩

theorem calls_restore_the_shell_leaving :
    ∃ after last : Shell,
      Call.function (.ofDepth 1 3) leavingFunction [.int 5] callingShell =
          some (.error .leftLoop, after) ∧
        after.frames = [⟨"outer", .ofList [("x", .int 1)]⟩] ∧
      Call.nested (.ofDepth 1 3) (.function leavingFunction) ["leave", "5"] ⟨none, none⟩
          callingShell = some (.ok 1, last) ∧
        last.frames = [⟨"outer", .ofList [("x", .int 1)]⟩] ∧ last.lastReturncode = 0 := by
  have calls : Call.function (.ofDepth 1 3) leavingFunction [.int 5] callingShell =
      some (.error .leftLoop, callingShell) := rfl
  have runs : ∃ last, Call.nested (.ofDepth 1 3) (.function leavingFunction) ["leave", "5"]
      ⟨none, none⟩ callingShell = some (.ok 1, last) := ⟨_, rfl⟩
  obtain ⟨last, runs⟩ := runs
  have frames := (calls_restore_the_shell 1 3 callingShell callingShell).1 _ _ _ calls
  have around := (calls_restore_the_shell 1 3 callingShell last).2 _ _ _ _ runs
  exact ⟨callingShell, last, calls, frames, runs, around.1, around.2.2.2⟩

end HybridShell
