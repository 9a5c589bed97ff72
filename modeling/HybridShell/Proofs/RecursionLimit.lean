import HybridShell.Proofs.CallFrames

/-!
# The recursion limit

A call needs a frame, and there are no more frames than the limit allows when
the latest of them was added.  A file starts without frames, so the limit
bounds the calls since the latest file and says nothing about the files.

That a run never comes to some point is stated through its answers: they are
the same whatever another interpreter does from that point on.
-/

namespace HybridShell

/-- How many calls may be in progress. -/
def Shell.recursionLimit (shell : Shell) : Nat :=
  shell.session.settings.maxRecursion

/-- An evaluation of code that is in progress. -/
structure Hosting where
  isFile : Bool
  /-- The recursion limit when the evaluation started. -/
  limit : Nat

namespace Hosting

def start (code : HostCode) (shell : Shell) : Hosting :=
  ⟨code.isFile, shell.recursionLimit⟩

def callsSinceFile : List Hosting → Nat
  | [] => 0
  | latest :: earlier => if latest.isFile then 0 else callsSinceFile earlier + 1

def FoundRoom : List Hosting → Prop
  | [] => True
  | latest :: earlier => callsSinceFile (latest :: earlier) ≤ latest.limit ∧ FoundRoom earlier

structure Within (inProgress : List Hosting) (shell : Shell) : Prop where
  calls : callsSinceFile inProgress = shell.frames.length
  room : FoundRoom inProgress

/-- Without files, all evaluations in progress are counted. -/
theorem callsSinceFile_eq_length {inProgress : List Hosting}
    (noFile : ∀ hosting ∈ inProgress, hosting.isFile = false) :
    callsSinceFile inProgress = inProgress.length := by
  induction inProgress with
  | nil => rfl
  | cons latest earlier ih =>
    have counted := ih fun hosting member => noFile hosting (List.mem_cons_of_mem latest member)
    simp [callsSinceFile, noFile latest List.mem_cons_self, counted]

variable {code : HostCode} {shell : Shell} {earlier : List Hosting}

theorem within_call (isCall : code.isFile = false) (room : FoundRoom earlier)
    (counted : callsSinceFile earlier + 1 = shell.frames.length)
    (found : callsSinceFile earlier + 1 ≤ shell.recursionLimit) :
    Within (start code shell :: earlier) shell := by
  have calls : callsSinceFile (start code shell :: earlier) = callsSinceFile earlier + 1 :=
    if_neg (Bool.eq_false_iff.mp isCall)
  exact ⟨calls.trans counted, calls ▸ found, room⟩

theorem within_file (isFile : code.isFile = true) (room : FoundRoom earlier)
    (noFrames : shell.frames = []) : Within (start code shell :: earlier) shell := by
  have calls : callsSinceFile (start code shell :: earlier) = 0 := if_pos isFile
  exact ⟨by rw [calls, noFrames]; rfl, by rw [calls]; exact Nat.zero_le _, room⟩

end Hosting

/-! ### Handing over -/

namespace Run

variable {α : Type}

def divert (run : Run α) (taken : Shell → Bool) (other : Run α) : Run α :=
  ExceptT.mk fun shell => if taken shell then other.run shell else run.run shell

theorem Agree.divert {relation : Shell → Shell → Prop} {region : Region relation}
    {taken : Shell → Bool} {first second : Run α} (agree : Agree region first second)
    (other : Run α) (untaken : ∀ shell, region.Holds shell → taken shell = false) :
    Agree region first (second.divert taken other) where
  keeps := agree.keeps
  same {shell} holds := by
    change first.run shell = if taken shell then other.run shell else second.run shell
    rw [untaken shell holds]
    exact Action.Agree.same agree holds

end Run

namespace Interpreter

def divert (inner : Interpreter) (taken : Shell → Bool) (other : Interpreter) : Interpreter where
  rounds := inner.rounds
  expression written := (inner.expression written).divert taken (other.expression written)
  captured written := (inner.captured written).divert taken (other.captured written)
  block body := (inner.block body).divert taken (other.block body)
  repeatWhile condition body :=
    (inner.repeatWhile condition body).divert taken (other.repeatWhile condition body)
  source text := (inner.source text).divert taken (other.source text)
  host code := (inner.host code).divert taken (other.host code)

theorem AgreeOn.divert {relation : Shell → Shell → Prop} {region : Region relation}
    {taken : Shell → Bool} {first second : Interpreter} (agree : first.AgreeOn region second)
    (other : Interpreter) (untaken : ∀ shell, region.Holds shell → taken shell = false) :
    first.AgreeOn region (second.divert taken other) where
  rounds := agree.rounds
  expression written := (agree.expression written).divert _ untaken
  captured written := (agree.captured written).divert _ untaken
  block body := (agree.block body).divert _ untaken
  repeatWhile condition body := (agree.repeatWhile condition body).divert _ untaken
  source text := (agree.source text).divert _ untaken
  host code := (agree.host code).divert _ untaken

/--
An interpreter for parts that counts the code that they run: it is one more
evaluation in progress.
-/
def counting (inner : List Hosting → Interpreter) (inProgress : List Hosting) : Interpreter :=
  { inner inProgress with
    host := fun code => ExceptT.mk fun shell =>
      ((inner (.start code shell :: inProgress)).host code).run shell }

/--
An interpreter that knows which evaluations are in progress, and lets another
one take over at some points.
-/
def handingOver (points : List Hosting → Shell → Bool) (other : Interpreter) (rounds : Nat) :
    Nat → List Hosting → Interpreter
  | 0, inProgress => silent.divert (points inProgress) other
  | depth + 1, inProgress =>
    (above rounds (counting (handingOver points other rounds depth) inProgress)).divert
      (points inProgress) other

/--
No answer for a source text depends on what happens at some points, however
far the run goes: it never comes to one of them.
-/
def NeverReaches (rounds : Nat) (text : String) (before : Shell)
    (points : List Hosting → Shell → Bool) : Prop :=
  ∀ depth other,
    (handingOver points other rounds depth []).source text before =
      (ofDepth rounds depth).source text before

def callRegion (calls : Nat) : Region Shell.SameCalls where
  Holds shell := calls = shell.frames.length
  stays same holds := holds.trans same.length_eq.symm

/-- From there, calls start that find room, and files. -/
def callPlaces (calls : Nat) : Places Shell.SameCalls where
  here := callRegion calls
  calls shell := calls + 1 = shell.frames.length ∧ calls + 1 ≤ shell.recursionLimit
  files shell := shell.frames = []
  call _ _ holds room := ⟨congrArg (· + 1) holds, holds ▸ room⟩
  file _ := rfl

/-- Where the evaluations in progress are within the limit, nothing takes over. -/
theorem agreeOn_handingOver {points : List Hosting → Shell → Bool}
    (beyond : ∀ inProgress shell, points inProgress shell = true →
      ¬ Hosting.Within inProgress shell)
    (other : Interpreter) (rounds depth : Nat) {inProgress : List Hosting}
    (room : Hosting.FoundRoom inProgress) :
    (ofDepth rounds depth).AgreeOn (callRegion (Hosting.callsSinceFile inProgress))
      (handingOver points other rounds depth inProgress) := by
  have untaken {inProgress : List Hosting} (room : Hosting.FoundRoom inProgress) (shell : Shell)
      (holds : Hosting.callsSinceFile inProgress = shell.frames.length) :
      points inProgress shell = false :=
    Bool.eq_false_iff.mpr fun taken => beyond inProgress shell taken ⟨holds, room⟩
  induction depth generalizing inProgress with
  | zero => exact agreeOn_silent.divert other (untaken room)
  | succ depth ih =>
    -- Code runs one layer below with itself in progress, where the induction hypothesis
    -- is used again: this is why it is about any evaluations in progress.
    have hosts (code : HostCode) (starts : Shell → Prop)
        (found : ∀ shell, starts shell →
          Hosting.Within (.start code shell :: inProgress) shell) :
        Run.AgreeFrom Shell.SameCalls starts ((ofDepth rounds depth).host code)
          ((counting (handingOver points other rounds depth) inProgress).host code) := by
      refine ⟨((ih room).host code).keeps, fun {shell} holds => ?_⟩
      have within := found shell holds
      exact Action.Agree.same ((ih within.room).host code) within.calls
    have agree : (ofDepth rounds depth).Agree
        (callPlaces (Hosting.callsSinceFile inProgress))
        (counting (handingOver points other rounds depth) inProgress) := by
      refine (ih room).agree (fun code isCall => hosts code _ ?_) fun code isFile =>
        hosts code _ ?_
      · rintro shell ⟨counted, found⟩
        exact Hosting.within_call isCall room counted found
      · intro shell noFrames
        exact Hosting.within_file isFile room noFrames
    exact (agreeOn_above rounds agree).divert other (untaken room)

end Interpreter

/-! ### Room for calls -/

variable {inner : Interpreter} {shell : Shell}

theorem Call.function_of_full {called : Function} {arguments : List Value}
    (full : shell.recursionLimit ≤ shell.frames.length)
    (fits : arguments.length = called.parameters.length) :
    Call.function inner called arguments shell = some (.error .recursion, shell) := by
  unfold Call.function
  rw [if_neg (not_not_intro fits)]
  exact (Run.inFrame_run _ _ _ shell).trans (if_pos full)

theorem Call.sourceAlias_of_full {text : String} {arguments : List String}
    (full : shell.recursionLimit ≤ shell.frames.length) :
    Call.sourceAlias inner text arguments shell = some (.error .recursion, shell) :=
  (Run.inFrame_run _ _ _ shell).trans (if_pos full)

/--
At every point of a run, the calls since the latest file each found room under
the limit when they started; without files, these are all evaluations in
progress.  Where the limit is reached, a further call fails.
-/
theorem recursion_limit_bounds_calls_since_the_latest_file (rounds : Nat) (text : String)
    {before : Shell} (outside : before.frames = []) :
    (∀ points : List Hosting → Shell → Bool,
      (∀ inProgress shell, points inProgress shell = true →
        ¬ Hosting.Within inProgress shell) →
      Interpreter.NeverReaches rounds text before points) ∧
    ∀ inProgress shell, Hosting.Within inProgress shell →
      ((∀ hosting ∈ inProgress, hosting.isFile = false) →
        ∀ latest ∈ inProgress.head?, inProgress.length ≤ latest.limit) ∧
      (shell.recursionLimit ≤ Hosting.callsSinceFile inProgress → ∀ inner : Interpreter,
        (∀ (called : Function) (arguments : List Value),
          arguments.length = called.parameters.length →
          Call.function inner called arguments shell = some (.error .recursion, shell)) ∧
        ∀ (text : String) (arguments : List String),
          Call.sourceAlias inner text arguments shell = some (.error .recursion, shell)) := by
  refine ⟨fun points beyond depth other => ?_, fun inProgress shell within => ⟨?_, ?_⟩⟩
  · have agree := Interpreter.agreeOn_handingOver beyond other rounds depth
      (show Hosting.FoundRoom [] from trivial)
    have starts : (Interpreter.callRegion (Hosting.callsSinceFile [])).Holds before := by
      change 0 = before.frames.length
      rw [outside]
      rfl
    exact (Action.Agree.same (agree.source text) starts).symm
  · intro noFile latest isLatest
    rw [← Hosting.callsSinceFile_eq_length noFile]
    cases inProgress with
    | nil => cases isLatest
    | cons hosting earlier =>
      cases isLatest
      exact within.room.1
  · intro reached inner
    have full : shell.recursionLimit ≤ shell.frames.length := within.calls ▸ reached
    exact ⟨fun _ _ => Call.function_of_full full, fun _ _ => Call.sourceAlias_of_full full⟩

/-- A shell that allows one call, with a file that runs itself. -/
def selfSourcingShell : Shell :=
  Shell.start
    (.start ⟨.ofList [("/", .directory),
      ("/a", .file (.ofBytes (Utf8.encode "source('a')")) false)], "/"⟩ [])
    (.start "/" (.ofList [("DUOSH_MAX_RECURSION", "1")]) false)

def fullShell : Shell :=
  { selfSourcingShell with frames := [⟨"f", ∅⟩] }

theorem recursion_limit_bounds_calls_since_the_latest_file_full :
    selfSourcingShell.frames = [] ∧
      Interpreter.NeverReaches 1 "source('a')" selfSourcingShell
        (fun inProgress shell => Hosting.callsSinceFile inProgress != shell.frames.length) ∧
      Hosting.Within [⟨false, 1⟩] fullShell ∧
      Call.sourceAlias .silent "x" ["g"] fullShell = some (.error .recursion, fullShell) := by
  have within : Hosting.Within [⟨false, 1⟩] fullShell := ⟨rfl, Nat.le_refl 1, trivial⟩
  have bounds := recursion_limit_bounds_calls_since_the_latest_file 1 "source('a')"
    (show selfSourcingShell.frames = [] from rfl)
  refine ⟨rfl, bounds.1 _ fun inProgress shell differ within => ?_, within, ?_⟩
  · rw [within.calls, bne_self_eq_false] at differ
    cases differ
  · exact ((bounds.2 _ _ within).2 (by decide +kernel) .silent).2 "x" ["g"]

def endingInterpreter : Interpreter where
  rounds := 0
  expression _ := throw .recursion
  captured _ := throw .recursion
  block _ := throw .recursion
  repeatWhile _ _ := throw .recursion
  source _ := throw .recursion
  host _ := throw .recursion

/-- A file that runs itself comes to more evaluations in progress than the limit allows. -/
theorem files_nest_beyond_the_recursion_limit :
    selfSourcingShell.recursionLimit = 1 ∧
      ¬ Interpreter.NeverReaches 1 "source('a')" selfSourcingShell
        (fun inProgress shell => decide (shell.recursionLimit < inProgress.length)) := by
  refine ⟨by decide +kernel, fun never => ?_⟩
  have same := congrArg Option.isSome (never 5 endingInterpreter)
  have handedOver : ((Interpreter.handingOver
      (fun inProgress shell => decide (shell.recursionLimit < inProgress.length))
      endingInterpreter 1 5 []).source "source('a')" selfSourcingShell).isSome = true := by
    decide +kernel
  have goesOn : ((Interpreter.ofDepth 1 5).source "source('a')" selfSourcingShell).isSome =
      false := by
    decide +kernel
  exact Bool.false_ne_true (goesOn.symm.trans (same.symm.trans handedOver))

end HybridShell
