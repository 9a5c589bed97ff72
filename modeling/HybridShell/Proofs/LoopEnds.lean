import HybridShell.Proofs.Constructs

/-!
# What cannot end a loop

The end of a loop, or of one of its rounds, is an early end like any other
until the loop meets it.  A run is contained when it never ends that way.
Whatever is put together from contained runs without a stray `break` or
`continue` is contained.  A loop is contained whatever its body does, and so
is an alias whose code runs as a stage of a pipeline.
-/

namespace HybridShell

def Run.Contained {α : Type} (run : Run α) : Prop :=
  ∀ ⦃before after : Shell⦄ ⦃error : EvalError⦄,
    run.run before = some (.error error, after) → error.endsRound = false

variable {α β : Type}

namespace Run

namespace Contained

theorem pure (value : α) : Contained (Pure.pure value : Run α) := by
  intro before after error answer
  cases answer

theorem throw {error : EvalError} (other : error.endsRound = false) :
    Contained (throw error : Run α) := by
  intro before after found answer
  cases answer
  exact other

theorem exhausted : Contained (exhausted : Run α) := by
  intro before after error answer
  cases answer

theorem lift (action : Action α) : Contained (ExceptT.lift action : Run α) := by
  intro before after error answer
  change (action >>= fun value => (Pure.pure (.ok value) : Action (Except EvalError α))) before = _
    at answer
  obtain ⟨value, middle, acts, same⟩ := Action.bind_eq_some_iff.mp answer
  cases same

theorem get : Contained (get : Run Shell) := by
  intro before after error answer
  cases answer

theorem set (shell : Shell) : Contained (set shell : Run Unit) := by
  intro before after error answer
  cases answer

theorem modify (change : Shell → Shell) : Contained (modify change : Run Unit) := by
  intro before after error answer
  cases answer

variable {run : Run α}

variable {next : α → Run β}

theorem bind_of_gives {property : α → Prop} (first : Contained run) (gives : Gives property run)
    (second : ∀ value, property value → Contained (next value)) : Contained (run >>= next) := by
  intro before after error answer
  obtain ⟨found, runs, same⟩ | ⟨value, middle, runs, goesOn⟩ := bind_eq_some_iff.mp answer
  · cases same
    exact first runs
  · exact second value (gives runs) goesOn

theorem bind (first : Contained run) (second : ∀ value, Contained (next value)) :
    Contained (run >>= next) := by
  have gives : Gives (fun _ => True) run := fun _ _ _ _ => trivial
  exact first.bind_of_gives gives fun value _ => second value

/-- The error of a run is given as a value first, and may be thrown afterwards. -/
theorem attempt {next : Except EvalError α → Run β} (contained : Contained run)
    (goesOn : ∀ found, (∀ error, found = .error error → error.endsRound = false) →
      Contained (next found)) :
    Contained ((ExceptT.mk do return .ok (← run.run) : Run (Except EvalError α)) >>= next) := by
  have gives : Gives (fun found => ∀ error, found = .error error → error.endsRound = false)
      (ExceptT.mk do return .ok (← run.run) : Run (Except EvalError α)) := by
    rintro before after found answer error rfl
    obtain ⟨given, middle, runs, same⟩ := Action.bind_eq_some_iff.mp answer
    cases same
    exact contained runs
  exact bind_of_gives (lift run.run) gives goesOn

theorem andFinally {run : Run α} (contained : Contained run) (after : Action Unit) :
    Contained (run.andFinally after) := by
  intro before last error answer
  obtain ⟨found, middle, runs, goesOn⟩ := Action.bind_eq_some_iff.mp answer
  obtain ⟨_, _, _, same⟩ := Action.bind_eq_some_iff.mp goesOn
  cases same
  exact contained runs

theorem ofProcess (action : Action (Except ProcessError α)) : Contained (ofProcess action) := by
  intro before after error answer
  obtain ⟨found, _, same⟩ := ofProcess_eq_some_iff.mp answer
  cases found with
  | ok value => cases same
  | error failure =>
    cases same
    rfl

end Contained

theorem contained_checkSignals : Contained checkSignals := by
  refine .bind .get fun shell => ?_
  split
  · exact .bind (.set _) fun _ => .throw rfl
  · split
    · exact .bind (.set _) fun _ => .throw rfl
    · exact .pure ()

variable {body : Run α}

theorem contained_inFrame (name : String) (locals : Dictionary Value) (contained : Contained body) :
    Contained (inFrame name locals body) := by
  refine .bind .get fun shell => ?_
  have runs : Contained (do
      set { shell with frames := ⟨name, locals⟩ :: shell.frames }
      body.andFinally (modify fun shell => { shell with frames := shell.frames.tail }) : Run α) :=
    .bind (.set _) fun _ => contained.andFinally _
  split
  · exact .bind (.throw rfl) fun _ => runs
  · exact runs

theorem contained_outsideCalls (contained : Contained body) : Contained (outsideCalls body) :=
  .bind .get fun _ => .bind (.set _) fun _ => contained.andFinally _

end Run

open Run (Contained)

theorem Call.contained_inUnit {body : Run α} (unit : Nat) (contained : Contained body) :
    Contained (inUnit unit body) :=
  .bind .get fun _ => .bind (.modify _) fun _ => contained.andFinally _

theorem Call.contained_bodyValue {body : Run Unit} (contained : Contained body) :
    Contained (bodyValue body) := by
  intro before after error answer
  obtain ⟨found, middle, runs, same⟩ := Action.bind_eq_some_iff.mp answer
  split at same
  · cases same
  · cases same
  · cases same
    exact contained runs

/-- A round of a loop meets every end of a loop or a round, whatever its body is. -/
theorem StatementRun.contained_round (inner : Interpreter) (body : List Statement) :
    Contained (round inner body) := by
  intro before after error answer
  obtain ⟨found, middle, runs, same⟩ := Action.bind_eq_some_iff.mp answer
  split at same
  · cases same
  · cases same
  · cases same
  · next found notNext notLeft =>
    cases same
    cases error with
    | leftLoop => exact absurd rfl notLeft
    | nextRound => exact absurd rfl notNext
    | _ => rfl

def Run.containment : Run.Likeness where
  Alike run _ := Contained run
  Allows error := error.endsRound = false
  allows other := other
  pure := .pure
  throw := .throw
  exhausted := @Contained.exhausted
  lift _ := .lift _
  ofProcess _ := .ofProcess _
  checkSignals := Run.contained_checkSignals
  bind contained goesOn := .bind contained goesOn
  attempt contained goesOn := .attempt contained goesOn
  inUnit unit contained := Call.contained_inUnit unit contained

theorem Run.stays_of_fits {strays : Bool} (fits : Run.containment.Fits strays) :
    strays = false := by
  refine Bool.eq_false_iff.mpr fun strays => ?_
  cases fits strays .leftLoop

/-- The parts of constructs are contained, except for blocks that stray. -/
structure Interpreter.Contained (inner : Interpreter) : Prop where
  expression (written : Expr) : Run.Contained (inner.expression written)
  captured (written : Chain) : Run.Contained (inner.captured written)
  block {body : List Statement} (stays : Straying.block body = false) :
    Run.Contained (inner.block body)
  repeatWhile (condition : Expr) (body : List Statement) :
    Run.Contained (inner.repeatWhile condition body)
  function (unit : Nat) (body : List Statement) :
    Run.Contained (inner.host (.function unit body))
  file (text : String) : Run.Contained (inner.host (.fileText text))

variable {inner : Interpreter}

theorem Interpreter.Contained.alike (contained : inner.Contained) :
    inner.Alike Run.containment inner where
  rounds := rfl
  expression := contained.expression
  captured := contained.captured
  block fits := contained.block (Run.stays_of_fits fits)
  round := StatementRun.contained_round inner
  repeatWhile := contained.repeatWhile
  function name locals unit body := Run.contained_inFrame name locals (contained.function unit body)
  file text := Run.contained_outsideCalls (contained.file text)
  assemble _ _ _ := .ofProcess _

theorem Call.contained_function (contained : inner.Contained) (called : Function)
    (arguments : List Value) : Contained (function inner called arguments) :=
  alike_function (contained.alike.function _ _ _ _)

end HybridShell
