import HybridShell.Evaluation.Chain
import HybridShell.Evaluation.Handle
import HybridShell.Proofs.Runs
import HybridShell.Proofs.Waits

/-!
# Actions outside of the program

Jobs, commands of the shell, and the stages of pipelines change the machine,
the session, the jobs and the pipelines.  They keep every relation that allows
such changes; a stage that is code of the program keeps what the program keeps.
The machine changes as machines do, so its pipes stay.
-/

namespace HybridShell

theorem Shell.pipesStay_writeOutput (shell : Shell) (text : String) :
    shell.machine.PipesStay (shell.writeOutput text).machine := by
  unfold writeOutput
  split
  · exact .of_size_eq (shell.machine.pipes_size_writeTo _ _)
  · exact .refl shell.machine

/-- A relation between shells that allows other sessions and jobs, and machines with all pipes. -/
class AllowsOutside (relation : Shell → Shell → Prop) : Prop extends
    IsPreorder Shell relation where
  outside (shell : Shell) {machine : Machine} (pipes : shell.machine.PipesStay machine)
    (session : Session) (jobs : JobTable) : relation shell { shell with machine, session, jobs }

/-- Every pipeline is still there, and raises its failure if it did before. -/
def Pipeline.AllStay (before after : Store Pipeline) : Prop :=
  ∀ number pipeline, before.get? number = some pipeline →
    ∃ later, after.get? number = some later ∧ later.raises = pipeline.raises

/-- A relation between shells that allows pipelines to start and to go on. -/
class AllowsPipelines (relation : Shell → Shell → Prop) : Prop extends
    AllowsOutside relation where
  pipelines (shell : Shell) {machine : Machine} (pipes : shell.machine.PipesStay machine)
    {pipelines : Store Pipeline} (stay : Pipeline.AllStay shell.pipelines pipelines) :
    relation shell { shell with machine, pipelines }

variable {α : Type} {relation : Shell → Shell → Prop}

section Outside

variable [AllowsOutside relation]

namespace Action

theorem keeps_session : Keeps relation session :=
  .bind .get fun shell => .pure shell.session

theorem keeps_modifySession (change : Session → Session) :
    Keeps relation (modifySession change) :=
  .modify fun shell => AllowsOutside.outside shell (.refl _) (change shell.session) shell.jobs

theorem keeps_modifyMachine {change : Machine → Machine}
    (pipes : ∀ machine, Machine.PipesStay machine (change machine)) :
    Keeps relation (modifyMachine change) :=
  .modify fun shell => AllowsOutside.outside shell (pipes shell.machine) shell.session shell.jobs

theorem keeps_complain (text : String) :
    Keeps relation (modify (·.complain text) : Action Unit) :=
  .modify fun shell =>
    AllowsOutside.outside shell (Machine.pipesStay_complain _ _) shell.session shell.jobs

theorem keeps_resolveNow (arguments : List String) : Keeps relation (resolveNow arguments) := by
  intro before after result answer
  cases answer
  exact AllowsOutside.outside before (.refl _) _ before.jobs

end Action

namespace JobControl

theorem keeps_modifyTable (change : JobTable → JobTable) :
    Action.Keeps relation (modifyTable change) :=
  .modify fun shell => AllowsOutside.outside shell (.refl _) shell.session (change shell.jobs)

theorem keeps_add (number : Nat) (pipeline : Pipeline) (state : JobState) :
    Action.Keeps relation (add number pipeline state) :=
  .bind .get fun shell => .bind (keeps_modifyTable _) fun _ => .pure shell.jobs.nextId

theorem keeps_addBackground (number : Nat) : Action.Keeps relation (addBackground number) := by
  refine .bind .get fun shell => ?_
  split
  · exact .pure none
  · split
    · exact .bind (keeps_add number _ .background) fun id => .pure (some id)
    · exact .pure none

variable (relation) in
/-- A pipeline that stops in the foreground becomes a job, and nothing else changes. -/
theorem waitAs_eq_some {rounds number : Nat} {id? : Option Nat} {before after : Shell}
    {result : Except ProcessError Int}
    (answer : waitAs rounds number id? before = some (result, after)) :
    ∃ found middle,
      Action.withPipeline number (Pipeline.waitFor true rounds) before = some (found, middle) ∧
        relation middle after ∧ (∀ error, found = .error error → result = .error error) ∧
        ∀ code, found = .ok (.finished code) → result = .ok code := by
  obtain ⟨found, middle, waits, goesOn⟩ := Action.bind_eq_some_iff.mp answer
  refine ⟨found, middle, waits, ?_⟩
  match found with
  | .error error =>
    cases goesOn
    exact ⟨Std.Refl.refl after, fun _ same => by cases same; rfl, by rintro _ ⟨⟩⟩
  | .ok (.finished code) =>
    cases goesOn
    exact ⟨Std.Refl.refl after, by rintro _ ⟨⟩, fun _ same => by cases same; rfl⟩
  | .ok .stopped =>
    refine ⟨Action.Keeps.bind .get (fun shell => ?_) goesOn, by rintro _ ⟨⟩, by rintro _ ⟨⟩⟩
    split
    · exact .pure _
    · next pipeline _ =>
      cases id? with
      | none =>
        refine .bind (keeps_add number pipeline .stopped) fun id => ?_
        exact .bind (Action.keeps_complain _) fun _ => .pure _
      | some id =>
        refine .bind (keeps_modifyTable _) fun _ => .bind (.pure id) fun id => ?_
        exact .bind (Action.keeps_complain _) fun _ => .pure _

theorem keeps_waitAs {rounds number : Nat}
    (waits : Action.Keeps relation (Action.withPipeline number (Pipeline.waitFor true rounds)))
    (id? : Option Nat) : Action.Keeps relation (waitAs rounds number id?) := by
  intro before after result answer
  obtain ⟨found, middle, waited, kept, _⟩ := waitAs_eq_some relation answer
  exact IsTrans.trans _ _ _ (waits waited) kept

end JobControl

theorem Run.keeps_checkSignals : Run.Keeps relation checkSignals := by
  refine .get_bind fun shell => ?_
  split
  · exact .set_bind (AllowsOutside.outside shell (.refl _) _ shell.jobs) (.throw _)
  · split
    · have lowered := shell.machine.pipesStay_setFlag Machine.sessionFlag false
      exact .set_bind (AllowsOutside.outside shell lowered shell.session shell.jobs) (.throw _)
    · exact Keeps.from (.pure ()) shell

theorem Handle.keeps_pipeline (handle : PipelineHandle) :
    Run.Keeps relation (Handle.pipeline handle) := by
  refine .bind .get fun shell => ?_
  split
  · exact .pure _
  · exact .exhausted

theorem CommandRun.keeps_registerBackground (number : Nat) :
    Action.Keeps relation (registerBackground number) := by
  refine .bind (JobControl.keeps_addBackground number) fun found => ?_
  split
  · exact .pure ()
  · refine .bind .get fun shell => ?_
    split
    · exact Action.keeps_complain _
    · exact .pure ()

end Outside

/-! ### Pipelines and jobs -/

variable [AllowsPipelines relation]

namespace Action

variable (number : Nat)

theorem keeps_withPipeline {wait : Machine → Pipeline → Option (Waited α)}
    (leaves : Pipeline.LeavesInPlace wait) : Keeps relation (withPipeline number wait) := by
  intro before after result answer
  obtain ⟨pipeline, waited, found, waits, _, rfl⟩ := withPipeline_eq_some_iff.mp answer
  have stays := leaves waits
  refine AllowsPipelines.pipelines before stays.pipes fun other before' held => ?_
  by_cases same : number = other
  · subst same
    obtain rfl : pipeline = before' := Option.some.inj (found.symm.trans held)
    exact ⟨waited.pipeline, pipeline?_after found waited.machine, stays.raises⟩
  · exact ⟨before', (Store.get?_set_of_ne _ _ same).trans held, rfl⟩

theorem keeps_pollPipeline : Keeps relation (pollPipeline number) := by
  refine keeps_withPipeline number fun machine pipeline waited polls => ?_
  cases polls
  exact ⟨Pipeline.raises_poll machine pipeline, Pipeline.pipesStay_poll machine pipeline⟩

theorem keeps_signalPipeline {act : Machine → Pipeline → Machine}
    (pipes : ∀ machine pipeline, Machine.PipesStay machine (act machine pipeline)) :
    Keeps relation (signalPipeline number act) := by
  refine keeps_withPipeline number fun machine pipeline waited acts => ?_
  cases acts
  exact ⟨rfl, pipes machine pipeline⟩

theorem keeps_resumePipeline : Keeps relation (resumePipeline number) := by
  refine keeps_withPipeline number fun machine pipeline waited resumes => ?_
  cases resumes
  exact ⟨rfl, Pipeline.pipesStay_sendAll machine _ _ _⟩

end Action

namespace JobControl

theorem keeps_refresh : Action.Keeps relation refresh := by
  have keeps (job : Job) : Action.Keeps relation (refreshJob job) := by
    unfold refreshJob
    split
    · exact .pure ()
    · exact .bind (Action.keeps_pollPipeline job.pipeline) fun _ => keeps_modifyTable _
  exact .bind .get fun shell => .forM shell.jobs.jobs fun job _ => keeps job

theorem keeps_list : Action.Keeps relation list :=
  .bind keeps_refresh fun _ => .bind .get fun _ => .pure _

theorem keeps_waitForeground (rounds number : Nat) :
    Action.Keeps relation (waitForeground rounds number) :=
  keeps_waitAs (Action.keeps_withPipeline number (Pipeline.leavesInPlace_waitFor true rounds)) none

theorem keeps_foreground (rounds : Nat) (spec : Option String) :
    Action.Keeps relation (foreground rounds spec) := by
  refine .bind .get fun shell => ?_
  dsimp only
  split
  · exact .pure _
  · split
    · exact .pure _
    · refine .bind (keeps_modifyTable _) fun _ => .bind (Action.keeps_complain _) fun _ => ?_
      refine .bind (Action.keeps_resumePipeline _) fun _ => ?_
      refine .bind (keeps_waitAs ?_ _) fun _ => .pure _
      exact Action.keeps_withPipeline _ (Pipeline.leavesInPlace_waitFor true rounds)

theorem keeps_background (spec : Option String) : Action.Keeps relation (background spec) := by
  refine .bind keeps_refresh fun _ => .bind .get fun shell => ?_
  dsimp only
  split
  · exact .pure _
  · split
    · exact .pure _
    · split
      · exact .pure _
      · refine .ite_bind (Action.keeps_resumePipeline _) ?_
        refine .bind (keeps_modifyTable _) fun _ => .bind .get fun _ => ?_
        refine .bind (Action.keeps_complain _) fun _ => ?_
        exact .bind (keeps_modifyTable _) fun _ => .pure _

theorem keeps_disown (spec : Option String) : Action.Keeps relation (disown spec) := by
  refine .bind .get fun shell => ?_
  dsimp only
  split
  · exact .pure _
  · refine .bind (keeps_modifyTable _) fun _ => ?_
    split
    · split
      · exact .bind (Action.keeps_resumePipeline _) fun _ => .pure _
      · exact .pure _
    · exact .pure _

end JobControl

namespace ShellCommand

variable (call : Invocation)

theorem keeps_changeDirectory : Action.Keeps relation (changeDirectory call) := by
  unfold changeDirectory
  extract_lets go
  have goes (writes : List (Descriptor × String)) (target : String) :
      Action.Keeps relation (go writes target) := by
    refine .bind .get fun shell => ?_
    dsimp only
    split
    · exact .pure _
    · split
      · exact .pure _
      · exact .bind (Action.keeps_modifySession _) fun _ => .pure _
  split
  · split
    · exact .pure _
    · exact goes _ _
  · split
    · exact .pure _
    · exact goes _ _
  · exact goes _ _

theorem keeps_requestExit : Action.Keeps relation (requestExit call) := by
  unfold requestExit
  dsimp only
  split
  · exact .pure _
  · exact .bind (Action.keeps_modifySession _) fun _ => .pure _

theorem keeps_listJobs : Action.Keeps relation (listJobs call) := by
  refine .bind JobControl.keeps_list fun infos => ?_
  split <;> exact .pure _

theorem keeps_removeAliases : Action.Keeps relation (removeAliases call) := by
  refine .bind (.forIn call.arguments [] fun name _ writes => ?_) fun writes => .pure _
  refine .bind Action.keeps_session fun session => ?_
  split
  · exact .bind (Action.keeps_modifySession _) fun _ => .pure _
  · exact .pure _

theorem keeps_describeName (name : String) : Action.Keeps relation (describeName name) := by
  refine .bind Action.keeps_session fun session => ?_
  split
  · exact .pure _
  · refine .bind (Action.keeps_resolveNow _) fun found => ?_
    split <;> exact .pure _

theorem keeps_perform (rounds : Nat) (call : Invocation) (command : ShellCommand) :
    Action.Keeps relation (command.perform rounds call) := by
  cases command with
  | cd => exact keeps_changeDirectory call
  | exit => exact keeps_requestExit call
  | jobs => exact keeps_listJobs call
  | fg => exact .bind (JobControl.keeps_foreground rounds _) fun _ => .pure _
  | bg => exact .bind (JobControl.keeps_background _) fun _ => .pure _
  | disown => exact .bind (JobControl.keeps_disown _) fun _ => .pure _
  | unalias => exact keeps_removeAliases call
  | rehash => exact .bind (Action.keeps_modifySession _) fun _ => .pure _
  | which => exact .bind (.mapM _ fun name _ => keeps_describeName name) fun _ => .pure _

end ShellCommand

/-! ### Building stages -/

namespace Blueprint

variable (blueprint : Blueprint)

theorem keeps_openTarget (mode : FileMode) (target : ExpandedWord) :
    Run.Keeps relation (blueprint.openTarget mode target) := by
  refine .get_bind fun shell => .ofExcept_bind _ fun name => ?_
  split
  · exact Run.Keeps.from (.throw _) shell
  · next opens =>
    have stays := Machine.pipesStay_openFile opens
    exact .modify_bind (AllowsOutside.outside shell stays shell.session shell.jobs) (.pure _)

theorem keeps_redirect (redirections : Redirections) (redirect : ExpandedRedirect) :
    Run.Keeps relation (blueprint.redirect redirections redirect) := by
  cases redirect with
  | errToOut | outToErr => exact .pure _
  | file stream mode target =>
    exact .bind (keeps_openTarget blueprint mode target) fun _ => .pure _

theorem keeps_build (command : ExpandedCommand) (index : Nat) :
    Action.Keeps relation (blueprint.build command index) := by
  have built : Run.Keeps relation (blueprint.buildStage command index) := by
    refine .bind .get fun shell => .bind (.mapM _ fun word _ => .ofExcept _) fun found => ?_
    refine .ite_bind (.throw _) ?_
    refine .bind (.foldlM _ _ fun _ redirect _ => keeps_redirect blueprint _ redirect) ?_
    intro redirections
    refine .get_bind fun current => .set_bind ?_ (.bind (.ofExcept _) fun _ => .pure _)
    exact AllowsOutside.outside current (.refl _) _ current.jobs
  exact built

end Blueprint

/-! ### Starting stages -/

def StagePlan.IsPiped (plan : StagePlan) : Prop :=
  .pipe ∈ [plan.sinks.1, plan.sinks.2]

instance (plan : StagePlan) : Decidable plan.IsPiped :=
  inferInstanceAs (Decidable (.pipe ∈ [plan.sinks.1, plan.sinks.2]))

theorem StageStreams.pipesStay_close (streams : StageStreams) (machine : Machine) :
    machine.PipesStay (streams.close machine) :=
  machine.pipesStay_closeAll _

namespace Assembly

theorem pipesStay_defer (machine : Machine) (endpoint : Endpoint) :
    machine.PipesStay (defer machine endpoint).2.2 := by
  unfold defer
  split <;> exact .refl machine

theorem pipesStay_deliver (machine : Machine) (deferred : List (Nat × Endpoint)) :
    machine.PipesStay (deliver machine deferred) :=
  .foldl (fun current _ => .of_size_eq (current.pipes_size_writeTo _ _)) deferred machine

variable (assembly : Assembly)

theorem pipesStay_abort (machine : Machine) : machine.PipesStay (assembly.abort machine) := by
  have asked := (machine.pipesStay_setFlag assembly.flag true).trans
    (Pipeline.pipesStay_sendAll _ assembly.group.isSome Signal.terminate assembly.stages)
  have ended := asked.trans
    (Pipeline.pipesStay_sendAll _ assembly.group.isSome Signal.resume assembly.stages)
  refine (ended.trans (Machine.pipesStay_settle _)).trans (.foldl (fun current number => ?_) _ _)
  exact .of_size_eq (current.pipes_size_closeEndpoint _)

theorem pipes_size_openInput (machine : Machine) (plan : InputPlan) :
    (assembly.openInput machine plan).pipes.size = machine.pipes.size := by
  unfold openInput
  split
  · rfl
  · exact machine.pipes_size_shareEndpoint _
  · cases assembly.pipe with
    | none => rfl
    | some number => exact machine.pipes_size_closeEndpoint (.pipeReader number)

theorem pipes_openSink (pipe : Nat) (machine : Machine) (sink : Sink) :
    (assembly.openSink pipe machine sink).2.pipes = machine.pipes := by
  cases sink <;> rfl

/-- A stage makes a pipe when it writes into one, and only one for both of its streams. -/
theorem pipes_openStreams (plan : StagePlan) (machine : Machine) :
    (assembly.openStreams plan machine).2.pipes =
      if plan.IsPiped then
        (assembly.openInput machine plan.input).pipes.add
          ⟨.empty, [plan.sinks.1, plan.sinks.2].count .pipe, 1⟩
      else (assembly.openInput machine plan.input).pipes := by
  have piped : (if [plan.sinks.1, plan.sinks.2].count .pipe = 0
      then assembly.openInput machine plan.input
      else (assembly.openInput machine plan.input).addPipe
        ([plan.sinks.1, plan.sinks.2].count .pipe)).pipes =
          if plan.IsPiped then
            (assembly.openInput machine plan.input).pipes.add
              ⟨.empty, [plan.sinks.1, plan.sinks.2].count .pipe, 1⟩
          else (assembly.openInput machine plan.input).pipes := by
    split
    · next none =>
      have notPiped : ¬ plan.IsPiped := List.count_eq_zero.mp none
      rw [if_neg notPiped]
    · next some =>
      have isPiped : plan.IsPiped := List.count_pos_iff.mp (Nat.pos_of_ne_zero some)
      rw [if_pos isPiped]
      rfl
  unfold openStreams
  grind [pipes_openSink]

theorem pipes_size_openStreams (plan : StagePlan) (machine : Machine) :
    (assembly.openStreams plan machine).2.pipes.size =
      machine.pipes.size + if plan.IsPiped then 1 else 0 := by
  have same := assembly.pipes_size_openInput machine plan.input
  rw [pipes_openStreams]
  split
  · rw [Store.size_add, same]
  · exact same

theorem pipesStay_openStreams (plan : StagePlan) (machine : Machine) :
    machine.PipesStay (assembly.openStreams plan machine).2 := by
  unfold Machine.PipesStay
  simp [pipes_size_openStreams]

end Assembly

theorem StageSpec.pipesStay_hostOutput (machine : Machine) (plan : OutputPlan)
    (endpoint : Endpoint) : machine.PipesStay (hostOutput machine plan endpoint).2.2 := by
  have deferred := Assembly.pipesStay_defer machine endpoint
  unfold hostOutput
  split
  · exact .refl machine
  · grind

namespace StageSpec

variable (spec : StageSpec)

theorem keeps_startProcess (path : String) (assembly : Assembly) (streams : StageStreams) :
    Action.Keeps relation (spec.startProcess path assembly streams) := by
  refine .bind .get fun shell => ?_
  extract_lets machine cannotStart
  have stops (error : SystemError) : Action.Keeps relation (cannotStart error) :=
    .bind (Action.keeps_modifyMachine streams.pipesStay_close) fun _ => .pure _
  split
  · exact stops _
  · split
    · exact stops _
    · refine .bind (Action.keeps_modifyMachine fun machine => ?_) fun _ => .pure _
      exact machine.pipesStay_spawn _ _ _ _

theorem keeps_callableProgram (rounds : Nat) (callable : CallableAlias)
    (stack : Option (List String)) :
    Action.Keeps relation (spec.callableProgram rounds callable stack) := by
  unfold callableProgram
  split
  · exact .bind (.pure _) fun _ => .pure _
  · next command _ =>
    exact .bind (.map _ (ShellCommand.keeps_perform rounds _ command)) fun _ => .pure _

theorem keeps_startWorker (rounds : Nat) (callable : CallableAlias) (stack : Option (List String))
    (assembly : Assembly) (streams : StageStreams) :
    Action.Keeps relation (spec.startWorker rounds callable stack assembly streams) := by
  refine .bind (keeps_callableProgram spec rounds callable stack) fun program => ?_
  refine .bind .get fun shell => ?_
  refine .bind (Action.keeps_modifyMachine fun machine => ?_) fun _ => .pure _
  exact machine.pipesStay_spawn _ _ _ _

theorem keeps_runInline (rounds : Nat) (callable : CallableAlias) (stack : Option (List String))
    (streams : StageStreams) :
    Action.Keeps relation (spec.runInline rounds callable stack streams) := by
  refine .bind (keeps_callableProgram spec rounds callable stack) fun program => ?_
  refine .get_bind fun shell => ?_
  dsimp only
  split
  · exact Action.Keeps.from .failure shell
  · next outcome finished finishes =>
    have stays := ((Assembly.pipesStay_defer shell.machine streams.output).trans
      (Assembly.pipesStay_defer _ streams.error)).trans
        ((Machine.pipesStay_spawn _ _ _ _ _).trans (Machine.pipesStay_finishTask finishes))
    have delivered (feeds : List (Nat × Endpoint)) :=
      stays.trans ((Assembly.pipesStay_deliver finished feeds).trans
        (Machine.pipesStay_closeAll _ streams.outputs))
    refine .modify_bind (AllowsOutside.outside shell (delivered _) shell.session shell.jobs) ?_
    split
    · refine .bind (Action.keeps_modifyMachine fun machine => ?_) fun _ => .pure _
      exact machine.pipesStay_setFlag Machine.sessionFlag false
    · exact .pure _

end StageSpec

/-! ### Pipelines with code among their stages -/

variable {region : Region relation} {first second : NestedRunner}

/-- What runs code gives the same answers on a region. -/
structure NestedRunner.Agree (region : Region relation) (first second : NestedRunner) : Prop where
  run (code : NestedAlias) (arguments : List String) (streams : HostStreams) :
    Action.Agree region (first.run code arguments streams) (second.run code arguments streams)
  callStack : Action.Agree region first.callStack second.callStack

namespace StageSpec

theorem agree_runNested (agree : first.Agree region second) (spec : StageSpec)
    (code : NestedAlias) (plan : StagePlan) (streams : StageStreams) :
    Action.Agree region (spec.runNested first code plan streams)
      (spec.runNested second code plan streams) := by
  have closes := streams.pipesStay_close
  unfold runNested
  refine .ite_bind (Action.keeps_modifyMachine fun machine => ?_) ?_
  · exact .of_size_eq (machine.pipes_size_closeEndpoint _)
  · refine .get_bind fun shell => .modify_bind ?_ ?_
    · have prepared := pipesStay_hostOutput shell.machine plan.output streams.output
      exact AllowsOutside.outside shell prepared shell.session shell.jobs
    · refine .bind (agree.run code _ _) fun found => .refl ?_
      split
      · exact .bind (Action.keeps_modifyMachine closes) fun _ => .pure _
      · refine .bind (Action.keeps_modifyMachine fun machine => ?_) fun _ => .pure _
        exact (Assembly.pipesStay_deliver machine _).trans (closes _)

theorem agree_startStage (agree : first.Agree region second) (spec : StageSpec) (rounds : Nat)
    (assembly : Assembly) (plan : StagePlan) (streams : StageStreams) :
    Action.Agree region (spec.startStage rounds first assembly plan streams)
      (spec.startStage rounds second assembly plan streams) := by
  unfold startStage
  cases spec.command with
  | external path => exact .refl (keeps_startProcess spec path assembly streams)
  | callable callable =>
    have starts (names : Option (List String)) : Action.Agree region
        (if callable.mainThread then spec.runInline rounds callable names streams
          else spec.startWorker rounds callable names assembly streams)
        (if callable.mainThread then spec.runInline rounds callable names streams
          else spec.startWorker rounds callable names assembly streams) := by
      refine .refl ?_
      split
      · exact keeps_runInline spec rounds callable names streams
      · exact keeps_startWorker spec rounds callable names assembly streams
    dsimp only
    split
    · exact .bind (.map _ agree.callStack) starts
    · exact .bind (.refl (.pure none)) starts
  | nested code => exact agree_runNested agree spec code plan streams

end StageSpec

/-- The stages of a pipeline differ only as the code among them does. -/
theorem Assembly.agree_startAll (agree : first.Agree region second) (rounds : Nat)
    (grouped : Bool) (assembly : Assembly) (stages : List (StageSpec × StagePlan)) :
    Action.Agree region (startAll rounds first grouped assembly stages)
      (startAll rounds second grouped assembly stages) := by
  induction stages generalizing assembly with
  | nil => exact .refl (.pure _)
  | cons stage rest ih =>
    refine .get_bind fun shell => ?_
    have opened := pipesStay_openStreams assembly stage.2 shell.machine
    refine .modify_bind (AllowsOutside.outside shell opened shell.session shell.jobs) ?_
    refine .bind (StageSpec.agree_startStage agree stage.1 rounds _ _ _) fun found => ?_
    cases found with
    | error error =>
      exact .refl (.bind (Action.keeps_modifyMachine assembly.pipesStay_abort) fun _ => .pure _)
    | ok stage => exact ih _

theorem Assembly.keeps_addBufferWhen (needed : Bool) :
    Action.Keeps relation (addBufferWhen needed) := by
  unfold addBufferWhen
  split
  · exact .bind .get fun _ => .bind (Action.keeps_modifyMachine .refl) fun _ => .pure _
  · exact .pure none

theorem Assembly.keeps_closeUnless (attached : Bool) (buffer : Option Nat) :
    Action.Keeps relation (closeUnless attached buffer) := by
  unfold closeUnless
  split
  · split
    · exact .pure ()
    · exact Action.keeps_modifyMachine fun machine =>
      .of_size_eq (machine.pipes_size_closeEndpoint _)
  · exact .pure ()

theorem Pipeline.keeps_prepare (last : StageSpec) : Action.Keeps relation (prepare last) := by
  refine .bind .get fun _ => .bind (Action.keeps_modifyMachine .refl) fun _ => ?_
  refine .bind (Assembly.keeps_addBufferWhen _) fun output => ?_
  exact .bind (Assembly.keeps_addBufferWhen _) fun errors => .pure _

theorem Pipeline.allStay_add (pipelines : Store Pipeline) (pipeline : Pipeline) :
    AllStay pipelines (pipelines.add pipeline) := by
  intro number found held
  have given : number < pipelines.size := (Array.getElem?_eq_some_iff.mp held).1
  exact ⟨found, (pipelines.get?_add_of_lt pipeline given).trans held, rfl⟩

/-- A pipeline starts differently only as the code among its stages does. -/
theorem Pipeline.agree_assemble (agree : first.Agree region second) (rounds : Nat)
    (settings : Settings) (host : HostStreams) (specs : List StageSpec) :
    Action.Agree region (assemble rounds settings host first specs)
      (assemble rounds settings host second specs) := by
  unfold assemble
  cases specs.getLast? with
  | none => exact .refl (.pure _)
  | some last =>
    refine .bind (.refl Action.keeps_session) fun session => ?_
    refine .bind (.refl .get) fun _ => .bind (.refl (keeps_prepare _)) fun _ => ?_
    refine .bind (Assembly.agree_startAll agree _ _ _ _) fun found => ?_
    cases found with
    | error error => exact .refl (.pure _)
    | ok assembly =>
      refine .refl (.bind (Assembly.keeps_closeUnless _ _) fun _ => ?_)
      refine .bind (Assembly.keeps_closeUnless _ _) fun _ => ?_
      refine .bind .get fun _ => .bind (.modify fun shell => ?_) fun _ => .pure _
      exact AllowsPipelines.pipelines shell (.refl _) (allStay_add shell.pipelines _)

/-! ### Waiting for values -/

namespace Run

theorem keeps_waiting (number : Nat) {wait : Machine → Pipeline → Option (Waited α)}
    (keeps : Pipeline.LeavesInPlace wait) : Keeps relation (waiting number wait) :=
  .lift (Action.keeps_withPipeline number keeps)

theorem keeps_truthy (rounds : Nat) (value : Value) : Keeps relation (truthy rounds value) := by
  cases value with
  | pipeline handle => exact keeps_waiting handle.number (Pipeline.leavesInPlace_succeeded rounds)
  | _ => exact .pure _

theorem keeps_exitStatus (rounds : Nat) (value : Value) :
    Keeps relation (exitStatus rounds value) :=
  .bind (keeps_truthy rounds value) fun _ => .pure _

end Run

end HybridShell
