import HybridShell.Evaluation.Run
import Mathlib.Order.Defs.Unbundled

/-!
# What runs leave behind

An action takes a shell and gives a result with the shell that it leaves, or
no answer.  An action keeps a relation when the relation holds between the two
shells of every answer.  Relations that hold of doing nothing, and of doing one
thing after another, are kept by whatever is put together from actions that
keep them.
-/

namespace HybridShell

/-- A shell in which nothing has run, on a machine without files. -/
def Shell.fresh : Shell :=
  start (.start ⟨.ofList [("/", .directory)], "/"⟩ []) (.start "/" (.ofList []) false)

variable {α β : Type}

namespace Action

variable {before after : Shell} {number : Nat}

theorem bind_eq_some_iff {action : Action α} {next : α → Action β} {result : β} :
    (action >>= next) before = some (result, after) ↔
      ∃ value middle, action before = some (value, middle) ∧
        next value middle = some (result, after) := by
  constructor
  · intro answer
    obtain ⟨⟨value, middle⟩, first, second⟩ := Option.bind_eq_some_iff.mp answer
    exact ⟨value, middle, first, second⟩
  · rintro ⟨value, middle, first, second⟩
    exact Option.bind_eq_some_iff.mpr ⟨(value, middle), first, second⟩

theorem withPipeline_eq_some_iff {wait : Machine → Pipeline → Option (Waited α)} {result : α} :
    withPipeline number wait before = some (result, after) ↔
      ∃ pipeline waited, before.pipeline? number = some pipeline ∧
        wait before.machine pipeline = some waited ∧ waited.result = result ∧
        { before with
          machine := waited.machine
          pipelines := before.pipelines.set number waited.pipeline } = after := by
  unfold withPipeline
  grind

theorem pipeline?_after {shell : Shell} {pipeline waited : Pipeline}
    (found : shell.pipeline? number = some pipeline) (machine : Machine) :
    Shell.pipeline? { shell with machine, pipelines := shell.pipelines.set number waited } number =
        some waited := by
  have given : number < shell.pipelines.size := by
    have bound := Array.getElem?_eq_some_iff.mp found
    exact bound.1
  exact shell.pipelines.get?_set_self waited given

end Action

namespace Run

variable {before after : Shell} {result : Except EvalError α}

theorem waiting_eq_some_iff {number : Nat} {wait : Machine → Pipeline → Option (Waited α)} :
    waiting number wait before = some (result, after) ↔
      ∃ value, Action.withPipeline number wait before = some (value, after) ∧
        result = .ok value := by
  change (Action.withPipeline number wait >>=
    fun value => (pure (.ok value) : Action (Except EvalError α))) before = _ ↔ _
  rw [Action.bind_eq_some_iff]
  constructor
  · rintro ⟨value, middle, waits, same⟩
    cases same
    exact ⟨value, waits, rfl⟩
  · rintro ⟨value, waits, rfl⟩
    exact ⟨value, after, waits, rfl⟩

theorem ofProcess_eq_some_iff {action : Action (Except ProcessError α)} :
    ofProcess action before = some (result, after) ↔
      ∃ found, action before = some (found, after) ∧ result = found.mapError .process := by
  change (action >>=
    fun found => (pure (found.mapError .process) : Action (Except EvalError α))) before = _ ↔ _
  rw [Action.bind_eq_some_iff]
  constructor
  · rintro ⟨found, middle, acts, same⟩
    cases same
    exact ⟨found, acts, rfl⟩
  · rintro ⟨found, acts, rfl⟩
    exact ⟨found, after, acts, rfl⟩

variable {run : Run α} {next : α → Run β}

theorem bind_eq_some_iff {before after : Shell} {result : Except EvalError β} :
    (run >>= next) before = some (result, after) ↔
      (∃ error, run before = some (.error error, after) ∧ result = .error error) ∨
      ∃ value middle, run before = some (.ok value, middle) ∧
        next value middle = some (result, after) := by
  constructor
  · intro answer
    obtain ⟨found, middle, first, second⟩ := Action.bind_eq_some_iff.mp answer
    cases found with
    | error error =>
      cases second
      exact .inl ⟨error, first, rfl⟩
    | ok value => exact .inr ⟨value, middle, first, second⟩
  · rintro (⟨error, first, rfl⟩ | ⟨value, middle, first, second⟩)
    · exact Action.bind_eq_some_iff.mpr ⟨.error error, after, first, rfl⟩
    · exact Action.bind_eq_some_iff.mpr ⟨.ok value, middle, first, second⟩

theorem get_bind (next : Shell → Run α) (shell : Shell) :
    (get >>= next) shell = next shell shell := rfl

theorem andFinally_eq_some_iff {change : Shell → Shell} :
    run.andFinally (modify change) before = some (result, after) ↔
      ∃ middle, run before = some (result, middle) ∧ change middle = after := by
  constructor
  · intro answer
    obtain ⟨found, middle, runs, goesOn⟩ := Action.bind_eq_some_iff.mp answer
    cases goesOn
    exact ⟨middle, runs, rfl⟩
  · rintro ⟨middle, runs, rfl⟩
    exact Action.bind_eq_some_iff.mpr ⟨result, middle, runs, rfl⟩

theorem bind_of_ok {middle : Shell} {value : α} (gives : run before = some (.ok value, middle)) :
    (run >>= next) before = next value middle := by
  change Option.bind (run before) _ = _
  rw [gives]
  rfl

end Run

/-! ### What is given -/

def Run.Gives {ε : Type} (property : α → Prop) (run : ExceptT ε Action α) : Prop :=
  ∀ ⦃before after : Shell⦄ ⦃value : α⦄,
    run.run before = some (.ok value, after) → property value

namespace Run

variable {ε : Type} {property : α → Prop}

theorem Gives.pure {value : α} (holds : property value) :
    Gives property (Pure.pure value : ExceptT ε Action α) := by
  intro before after given answer
  cases answer
  exact holds

variable {run : ExceptT ε Action β}

theorem Gives.bind {next : β → ExceptT ε Action α} (each : ∀ value, Gives property (next value)) :
    Gives property (run >>= next) := by
  intro before after given answer
  obtain ⟨found, middle, _, goesOn⟩ := Action.bind_eq_some_iff.mp answer
  cases found with
  | error error => cases goesOn
  | ok value => exact each value goesOn

theorem Gives.ite_bind {condition : Prop} [Decidable condition] {next : ExceptT ε Action α}
    (gives : Gives property next) :
    Gives property (if condition then run >>= fun _ => next else next) := by
  split
  · exact .bind fun _ => gives
  · exact gives

theorem Gives.ofProcess {action : ExceptT ProcessError Action α} (gives : Gives property action) :
    Gives property (ofProcess action.run) := by
  intro before after given answer
  obtain ⟨found, acts, same⟩ := ofProcess_eq_some_iff.mp answer
  cases found with
  | error error => cases same
  | ok value =>
    cases same
    exact gives acts

theorem Gives.mapM {step : β → Run α} (items : List β) (each : ∀ item, Gives property (step item)) :
    Gives (∀ value ∈ ·, property value) (items.mapM step) := by
  induction items with
  | nil =>
    exact .pure fun _ absent => absurd absent List.not_mem_nil
  | cons first rest ih =>
    rw [List.mapM_cons]
    intro before after values answer
    obtain ⟨error, _, same⟩ | ⟨value, middle, gives, answer⟩ := bind_eq_some_iff.mp answer
    · cases same
    · obtain ⟨error, _, same⟩ | ⟨others, last, givesAll, same⟩ := bind_eq_some_iff.mp answer
      · cases same
      · cases same
        exact List.forall_mem_cons.mpr ⟨each first gives, ih givesAll⟩

end Run

/-! ### Relations that are kept -/

/-- The relation holds between the shells before and after every answer. -/
def Action.Keeps (relation : Shell → Shell → Prop) (action : Action α) : Prop :=
  ∀ ⦃before after : Shell⦄ ⦃result : α⦄,
    action before = some (result, after) → relation before after

/-- The same of something that may end early, however it ends. -/
def Run.Keeps {ε : Type} (relation : Shell → Shell → Prop) (run : ExceptT ε Action α) : Prop :=
  Action.Keeps relation run.run

/-- The relation holds between one shell and the shells after the answers from it. -/
def Action.KeepsFrom (relation : Shell → Shell → Prop) (before : Shell) (action : Action α) :
    Prop :=
  ∀ ⦃after : Shell⦄ ⦃result : α⦄, action before = some (result, after) → relation before after

/-- The same of something that may end early, however it ends. -/
def Run.KeepsFrom {ε : Type} (relation : Shell → Shell → Prop) (before : Shell)
    (run : ExceptT ε Action α) : Prop :=
  Action.KeepsFrom relation before run.run

variable {ε : Type} {relation : Shell → Shell → Prop}

namespace Action

variable {action : Action α}

theorem Keeps.mono {wider : Shell → Shell → Prop}
    (weaker : ∀ {before after}, relation before after → wider before after)
    (keeps : Keeps relation action) : Keeps wider action :=
  fun _ _ _ answer => weaker (keeps answer)

theorem Keeps.modify {change : Shell → Shell} (changes : ∀ shell, relation shell (change shell)) :
    Keeps relation (modify change : Action Unit) := by
  intro before after result answer
  cases answer
  exact changes before

theorem Keeps.failure : Keeps relation (failure : Action α) := by
  intro before after result answer
  cases answer

theorem Keeps.from (keeps : Keeps relation action) (before : Shell) :
    KeepsFrom relation before action :=
  fun _ _ answer => keeps answer

theorem Keeps.get_bind {next : Shell → Action α}
    (goesOn : ∀ shell, KeepsFrom relation shell (next shell)) :
    Keeps relation (get >>= next) :=
  fun before _ _ answer => goesOn before answer

end Action

variable {action : Action α}

theorem Run.Keeps.lift (keeps : Action.Keeps relation action) :
    Keeps relation (ExceptT.lift action : ExceptT ε Action α) := by
  intro before after result answer
  change (action >>= fun value => (Pure.pure (.ok value) : Action (Except ε α))) before = _
    at answer
  obtain ⟨value, middle, acts, same⟩ := Action.bind_eq_some_iff.mp answer
  cases same
  exact keeps acts

theorem Run.Keeps.monadLift (keeps : Action.Keeps relation action) :
    Keeps relation (MonadLiftT.monadLift action : ExceptT ε Action α) :=
  .lift keeps

theorem Run.Keeps.exhausted : Keeps relation (exhausted : Run α) := by
  intro before after result answer
  cases answer

theorem Run.Keeps.modify {change : Shell → Shell}
    (changes : ∀ shell, relation shell (change shell)) :
    Keeps relation (modify change : ExceptT ε Action Unit) := by
  intro before after result answer
  cases answer
  exact changes before

theorem Run.Keeps.from {run : ExceptT ε Action α} (keeps : Keeps relation run) (before : Shell) :
    KeepsFrom relation before run :=
  fun _ _ answer => keeps answer

theorem Run.Keeps.get_bind {next : Shell → ExceptT ε Action α}
    (goesOn : ∀ shell, KeepsFrom relation shell (next shell)) :
    Keeps relation (get >>= next) :=
  fun before _ _ answer => goesOn before answer

theorem Run.Keeps.ofProcess {action : Action (Except ProcessError α)}
    (keeps : Action.Keeps relation action) : Keeps relation (ofProcess action) := by
  intro before after result answer
  obtain ⟨found, acts, _⟩ := ofProcess_eq_some_iff.mp answer
  exact keeps acts

variable [IsPreorder Shell relation]

namespace Action

theorem Keeps.pure (value : α) : Keeps relation (Pure.pure value : Action α) := by
  intro before after result answer
  cases answer
  exact Std.Refl.refl before

theorem Keeps.get : Keeps relation (get : Action Shell) := by
  intro before after result answer
  cases answer
  exact Std.Refl.refl before

variable {action : Action α}

theorem Keeps.bind {next : α → Action β} (first : Keeps relation action)
    (second : ∀ value, Keeps relation (next value)) : Keeps relation (action >>= next) := by
  intro before after result answer
  obtain ⟨value, middle, acts, goesOn⟩ := bind_eq_some_iff.mp answer
  exact IsTrans.trans _ _ _ (first acts) (second value goesOn)

theorem KeepsFrom.modify_bind {before : Shell} {change : Shell → Shell} {next : Unit → Action α}
    (changes : relation before (change before)) (goesOn : Keeps relation (next ())) :
    KeepsFrom relation before (modify change >>= next) :=
  fun _ _ answer => IsTrans.trans _ _ _ changes (goesOn answer)

theorem Keeps.ite_bind {condition : Prop} [Decidable condition] {next : Action β}
    (first : Keeps relation action) (second : Keeps relation next) :
    Keeps relation (if condition then action >>= fun _ => next else next) := by
  split
  · exact .bind first fun _ => second
  · exact second

theorem Keeps.map (change : α → β) (keeps : Keeps relation action) :
    Keeps relation (change <$> action) := by
  exact keeps.bind fun value => .pure (change value)

variable (items : List α)

theorem Keeps.mapM {step : α → Action β} (each : ∀ item ∈ items, Keeps relation (step item)) :
    Keeps relation (items.mapM step) := by
  induction items with
  | nil =>
    exact .pure []
  | cons first rest ih =>
    rw [List.mapM_cons]
    refine .bind (each first List.mem_cons_self) fun value => ?_
    refine .bind (ih fun item member => each item (List.mem_cons_of_mem first member)) ?_
    exact fun values => .pure (value :: values)

theorem Keeps.forIn {step : α → β → Action (ForInStep β)} (start : β)
    (each : ∀ item ∈ items, ∀ found, Keeps relation (step item found)) :
    Keeps relation (ForIn.forIn items start step) := by
  induction items generalizing start with
  | nil => exact .pure start
  | cons first rest ih =>
    rw [List.forIn_cons]
    refine .bind (each first List.mem_cons_self start) fun found => ?_
    cases found with
    | done found => exact .pure found
    | yield found =>
      exact ih found fun item member => each item (List.mem_cons_of_mem first member)

theorem Keeps.forM {step : α → Action Unit} (each : ∀ item ∈ items, Keeps relation (step item)) :
    Keeps relation (items.forM step) := by
  induction items with
  | nil => exact .pure ()
  | cons first rest ih =>
    refine .bind (each first List.mem_cons_self) fun _ => ?_
    exact ih fun item member => each item (List.mem_cons_of_mem first member)

end Action

namespace Run

theorem Keeps.pure (value : α) : Keeps relation (Pure.pure value : ExceptT ε Action α) := by
  intro before after result answer
  cases answer
  exact Std.Refl.refl before

theorem Keeps.throw (error : ε) : Keeps relation (throw error : ExceptT ε Action α) := by
  intro before after result answer
  cases answer
  exact Std.Refl.refl before

theorem Keeps.ofExcept (found : Except ε α) :
    Keeps relation (liftM found : ExceptT ε Action α) := by
  intro before after result answer
  cases answer
  exact Std.Refl.refl before

theorem Keeps.get : Keeps relation (get : ExceptT ε Action Shell) := by
  intro before after result answer
  cases answer
  exact Std.Refl.refl before

variable {run : ExceptT ε Action α} {before : Shell}

variable {next : α → ExceptT ε Action β}

theorem Keeps.bind (first : Keeps relation run) (second : ∀ value, Keeps relation (next value)) :
    Keeps relation (run >>= next) := by
  intro before after result answer
  obtain ⟨found, middle, runs, goesOn⟩ := Action.bind_eq_some_iff.mp answer
  cases found with
  | error error =>
    cases goesOn
    exact first runs
  | ok value => exact IsTrans.trans _ _ _ (first runs) (second value goesOn)

theorem Keeps.ite_bind {condition : Prop} [Decidable condition] {next : ExceptT ε Action β}
    (first : Keeps relation run) (second : Keeps relation next) :
    Keeps relation (if condition then run >>= fun _ => next else next) := by
  split
  · exact .bind first fun _ => second
  · exact second

theorem KeepsFrom.set_bind {middle : Shell} {next : Unit → ExceptT ε Action α}
    (sets : relation before middle) (goesOn : Keeps relation (next ())) :
    KeepsFrom relation before (set middle >>= next) :=
  fun _ _ answer => IsTrans.trans _ _ _ sets (goesOn answer)

theorem KeepsFrom.modify_bind {change : Shell → Shell} {next : Unit → ExceptT ε Action α}
    (changes : relation before (change before)) (goesOn : Keeps relation (next ())) :
    KeepsFrom relation before (modify change >>= next) :=
  fun _ _ answer => IsTrans.trans _ _ _ changes (goesOn answer)

theorem KeepsFrom.ofExcept_bind (found : Except ε α)
    (goesOn : ∀ value, KeepsFrom relation before (next value)) :
    KeepsFrom relation before ((liftM found : ExceptT ε Action α) >>= next) := by
  intro after result answer
  cases found with
  | error error =>
    cases answer
    exact Std.Refl.refl before
  | ok value => exact goesOn value answer

theorem Keeps.foldlM {step : β → α → ExceptT ε Action β} (items : List α) (start : β)
    (each : ∀ found, ∀ item ∈ items, Keeps relation (step found item)) :
    Keeps relation (items.foldlM step start) := by
  induction items generalizing start with
  | nil => exact .pure start
  | cons first rest ih =>
    refine .bind (each start first List.mem_cons_self) fun found => ?_
    exact ih found fun found item member => each found item (List.mem_cons_of_mem first member)

theorem Keeps.mapM {step : α → ExceptT ε Action β} (items : List α)
    (each : ∀ item ∈ items, Keeps relation (step item)) : Keeps relation (items.mapM step) := by
  induction items with
  | nil =>
    exact .pure []
  | cons first rest ih =>
    rw [List.mapM_cons]
    refine .bind (each first List.mem_cons_self) fun value => ?_
    refine .bind (ih fun item member => each item (List.mem_cons_of_mem first member)) ?_
    exact fun values => .pure (value :: values)

end Run

/-! ### Runs that agree

Two runs agree on a region of shells when they give the same answers there.
What is put together from runs that agree gives the same answers too, as long
as none of them leaves the region on the way.
-/

/-- Shells that are not left as long as a relation is kept. -/
structure Region (relation : Shell → Shell → Prop) where
  Holds : Shell → Prop
  stays {before after : Shell} : relation before after → Holds before → Holds after

def Region.everywhere : Region relation :=
  ⟨fun _ => True, fun _ _ => trivial⟩

/-- The answers are the same on a region, and the first action keeps the relation. -/
structure Action.Agree (region : Region relation) (first second : Action α) : Prop where
  keeps : Keeps relation first
  same {shell : Shell} (holds : region.Holds shell) : first shell = second shell

/-- The answers from one shell of a region are the same, and the first action keeps the relation. -/
structure Action.AgreeAt (region : Region relation) (shell : Shell) (first second : Action α) :
    Prop where
  keeps : KeepsFrom relation shell first
  same (holds : region.Holds shell) : first shell = second shell

/-- The same of something that may end early. -/
def Run.Agree (region : Region relation) (first second : ExceptT ε Action α) : Prop :=
  Action.Agree region first.run second.run

/-- The answers are the same from some shells, whatever holds of those that they leave. -/
structure Run.AgreeFrom (relation : Shell → Shell → Prop) (starts : Shell → Prop)
    (first second : Run α) : Prop where
  keeps : Keeps relation first
  same {shell : Shell} (holds : starts shell) : first.run shell = second.run shell

variable {region : Region relation}

namespace Action

variable {action first second : Action α}

omit [IsPreorder Shell relation] in
theorem Agree.refl (keeps : Keeps relation action) : Agree region action action :=
  ⟨keeps, fun _ => rfl⟩

theorem Agree.bind {next other : α → Action β} (agree : Agree region first second)
    (goesOn : ∀ value, Agree region (next value) (other value)) :
    Agree region (first >>= next) (second >>= other) where
  keeps := .bind agree.keeps fun value => (goesOn value).keeps
  same {shell} holds := by
    change Option.bind (first shell) (fun found => next found.1 found.2) =
      Option.bind (second shell) fun found => other found.1 found.2
    rw [← agree.same holds]
    cases answer : first shell with
    | none => rfl
    | some found =>
      exact (goesOn found.1).same (region.stays (agree.keeps answer) holds)

omit [IsPreorder Shell relation] in
theorem Agree.get_bind {next other : Shell → Action α}
    (goesOn : ∀ shell, AgreeAt region shell (next shell) (other shell)) :
    Agree region (get >>= next) (get >>= other) where
  keeps := .get_bind fun shell => (goesOn shell).keeps
  same {shell} holds := (goesOn shell).same holds

theorem AgreeAt.modify_bind {shell : Shell} {change : Shell → Shell} {next other : Unit → Action α}
    (changes : relation shell (change shell)) (goesOn : Agree region (next ()) (other ())) :
    AgreeAt region shell (modify change >>= next) (modify change >>= other) where
  keeps := .modify_bind changes goesOn.keeps
  same holds := goesOn.same (region.stays changes holds)

theorem Agree.ite_bind {condition : Prop} [Decidable condition] {next other : Action β}
    (keeps : Keeps relation action) (goesOn : Agree region next other) :
    Agree region (if condition then action >>= fun _ => next else next)
      (if condition then action >>= fun _ => other else other) := by
  split
  · exact .bind (.refl keeps) fun _ => goesOn
  · exact goesOn

theorem Agree.map (change : α → β) (agree : Agree region first second) :
    Agree region (change <$> first) (change <$> second) := by
  exact agree.bind fun value => .refl (.pure (change value))

end Action

namespace Run

variable {first second : ExceptT ε Action α}

omit [IsPreorder Shell relation] in
theorem Agree.keeps (agree : Agree region first second) : Keeps relation first :=
  Action.Agree.keeps agree

omit [IsPreorder Shell relation] in
theorem Agree.refl {run : ExceptT ε Action α} (keeps : Keeps relation run) :
    Agree region run run :=
  Action.Agree.refl keeps

theorem Agree.bind {next other : α → ExceptT ε Action β} (agree : Agree region first second)
    (goesOn : ∀ value, Agree region (next value) (other value)) :
    Agree region (first >>= next) (second >>= other) := by
  refine Action.Agree.bind agree fun found => ?_
  cases found with
  | error error => exact .refl (.pure _)
  | ok value => exact goesOn value

theorem Agree.ofProcess {first second : Action (Except ProcessError α)}
    (agree : Action.Agree region first second) :
    Agree region (ofProcess first) (ofProcess second) :=
  Action.Agree.bind agree fun _ => .refl (.pure _)

theorem AgreeFrom.bind {starts : Shell → Prop} {first second : Run α} {next : α → Run β}
    (agree : AgreeFrom relation starts first second)
    (goesOn : ∀ value, Keeps relation (next value)) :
    AgreeFrom relation starts (first >>= next) (second >>= next) where
  keeps := .bind agree.keeps goesOn
  same holds := congrArg (Option.bind · _) (agree.same holds)

theorem Agree.andFinally {first second : Run α} {after : Action Unit}
    (agree : Agree region first second) (restores : Action.Keeps relation after) :
    Agree region (first.andFinally after) (second.andFinally after) :=
  Action.Agree.bind agree fun _ => .refl (.bind restores fun _ => .pure _)

end Run

end HybridShell
