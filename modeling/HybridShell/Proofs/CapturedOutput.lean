import HybridShell.Evaluation.Statement
import HybridShell.Proofs.Runs

/-!
# Captured output stays off the terminal

A stage of a captured pipeline is given files, pipes, buffers and the
terminal's error stream to write to, with one exception: code whose output was
sent after its complaints writes to the output of the terminal.  Other code has
a buffer of its own, so a pipeline without the exception does not depend on
what code would do at the terminal.
-/

namespace HybridShell

/-! ### Places that show output -/

def Endpoint.ShowsOutput (endpoint : Endpoint) : Prop :=
  ∃ (machine : Machine) (bytes : Bytes), (machine.writeTo bytes endpoint).shown ≠ machine.shown

theorem Endpoint.showsOutput_terminalOutput : ShowsOutput .terminalOutput := by
  refine ⟨.start ⟨∅, "/"⟩ [], [0], fun same => ?_⟩
  have bytes := congrArg Rope.toBytes same
  cases bytes

theorem Endpoint.not_showsOutput_buffer (number : Nat) (closes : Bool) :
    ¬ ShowsOutput (.buffer number false closes) :=
  fun ⟨_, _, differs⟩ => differs rfl

/-- What is written there is kept in a file, a pipe or a buffer. -/
def Endpoint.isStored : Endpoint → Bool
  | .file _ | .pipeWriter _ | .buffer _ _ _ => true
  | _ => false

namespace Sink

/-- The stream ends at the output of the terminal. -/
def isShown : Sink → Bool
  | .watched _ | .terminalOutput => true
  | _ => false

/-- The stream ends in a file, a pipe or a buffer. -/
def isStored : Sink → Bool
  | .terminalOutput | .terminalError => false
  | _ => true

end Sink

namespace Assembly

variable {machine : Machine}

variable {sink : Sink} {endpoint : Endpoint} (assembly : Assembly)

theorem not_showsOutput_openSink (pipe : Nat) (hidden : sink.isShown = false) :
    ¬ (assembly.openSink pipe machine sink).1.ShowsOutput := by
  rintro ⟨machine, bytes, differs⟩
  cases sink with
  | file number => grind [openSink, Machine.writeTo]
  | pipe | captured | complaints | host | terminalError => exact differs rfl
  | watched | terminalOutput => cases hidden

theorem isStored_openSink (pipe : Nat) (stored : sink.isStored = true) :
    (assembly.openSink pipe machine sink).1.isStored = true := by
  cases sink with
  | file | pipe | captured | complaints | host | watched => rfl
  | terminalOutput | terminalError => cases stored

theorem output_openStreams (plan : StagePlan) (machine : Machine) :
    ∃ pipe before, (assembly.openStreams plan machine).1.output =
      (assembly.openSink pipe before plan.sinks.1).1 := by
  unfold openStreams
  dsimp only
  split <;> exact ⟨_, _, rfl⟩

theorem error_openStreams (plan : StagePlan) (machine : Machine) :
    ∃ pipe before, (assembly.openStreams plan machine).1.error =
      (assembly.openSink pipe before plan.sinks.2).1 := by
  unfold openStreams
  dsimp only
  split
  · next same =>
    rw [same]
    exact ⟨_, _, rfl⟩
  · exact ⟨_, _, rfl⟩

theorem not_showsOutput_defer (machine : Machine) (hidden : ¬ endpoint.ShowsOutput) :
    ¬ (defer machine endpoint).1.ShowsOutput ∧
      ∀ feed ∈ (defer machine endpoint).2.1, ¬ feed.2.ShowsOutput := by
  cases endpoint with
  | file | pipeWriter =>
    refine ⟨Endpoint.not_showsOutput_buffer _ _, fun feed mem => ?_⟩
    rwa [List.mem_singleton.mp mem]
  | null | terminalInput | terminalOutput | terminalError | pipeReader | buffer =>
    exact ⟨hidden, List.forall_mem_nil _⟩

theorem defer_of_stored (machine : Machine) (stored : endpoint.isStored = true) :
    ∃ number live closes feeds after,
      defer machine endpoint = (.buffer number live closes, feeds, after) := by
  cases endpoint with
  | file | pipeWriter | buffer => exact ⟨_, _, _, _, _, rfl⟩
  | null | terminalInput | terminalOutput | terminalError | pipeReader => cases stored

end Assembly

/-! ### The plan of a captured pipeline -/

namespace WiringContext

variable {context : WiringContext} {spec : StageSpec} {isLast : Bool} {sink : Sink}

theorem outputPlan_eq_merged_iff :
    context.outputPlan spec isLast = .merged ↔ spec.output = .merged := by
  unfold outputPlan
  cases spec.output <;> simp

theorem isStored_outputPlan (captures : context.capture.capturesStdout = true)
    (goes : context.outputPlan spec isLast = .to sink) :
    sink.isStored = true ∧ sink.isShown = false := by
  unfold outputPlan lastSink at goes
  rw [if_pos captures] at goes
  cases target : spec.output with rw [target] at goes
  | file number =>
    cases goes
    exact ⟨rfl, rfl⟩
  | merged => simp_all
  | standard =>
    cases isLast with
    | false | true =>
      cases goes
      exact ⟨rfl, rfl⟩

theorem isShown_errorPlan (goes : context.errorPlan spec isLast = .to sink) :
    sink.isShown = false := by
  unfold errorPlan at goes
  cases target : spec.error with rw [target] at goes
  | file number =>
    cases goes
    rfl
  | merged => simp_all
  | standard =>
    dsimp only at goes
    split at goes
    · cases goes
      rfl
    · cases goes
      rfl

end WiringContext

/-- Neither stream of a stage shows output, and its own output is stored unless it is merged. -/
structure StagePlan.IsCaptured (plan : StagePlan) : Prop where
  output : plan.sinks.1.isShown = false
  error : plan.sinks.2.isShown = false
  stored : plan.output ≠ .merged → plan.sinks.1.isStored = true

variable {context : WiringContext} {spec : StageSpec} {plan : StagePlan}

theorem WiringContext.isCaptured_plan (captures : context.capture.capturesStdout = true)
    (input : InputPlan) (spec : StageSpec) (isLast : Bool) :
    StagePlan.IsCaptured
      ⟨input, context.outputPlan spec isLast, context.errorPlan spec isLast⟩ := by
  rcases output : context.outputPlan spec isLast with sink | _
  · obtain ⟨stored, hidden⟩ := isStored_outputPlan captures output
    rcases error : context.errorPlan spec isLast with other | _
    · exact ⟨hidden, isShown_errorPlan error, fun _ => stored⟩
    · exact ⟨hidden, hidden, fun _ => stored⟩
  · rcases error : context.errorPlan spec isLast with other | _
    · exact ⟨isShown_errorPlan error, isShown_errorPlan error, fun other => absurd rfl other⟩
    · exact ⟨rfl, rfl, fun other => absurd rfl other⟩

theorem WiringContext.isCaptured_of_mem (captures : context.capture.capturesStdout = true)
    {specs : List StageSpec} {before : Predecessor}
    (mem : (spec, plan) ∈ specs.zip (context.planFrom before specs)) :
    spec ∈ specs ∧ plan.IsCaptured ∧ (plan.output = .merged ↔ spec.output = .merged) := by
  induction specs generalizing before with
  | nil => cases mem
  | cons first rest ih =>
    rcases List.mem_cons.mp mem with same | later
    · cases same
      exact ⟨List.mem_cons_self, isCaptured_plan captures _ _ _, outputPlan_eq_merged_iff⟩
    · obtain ⟨member, captured, merged⟩ := ih later
      exact ⟨List.mem_cons_of_mem first member, captured, merged⟩

theorem StagePlan.IsCaptured.openStreams (captured : plan.IsCaptured) (assembly : Assembly)
    (machine : Machine) :
    ¬ (assembly.openStreams plan machine).1.output.ShowsOutput ∧
      ¬ (assembly.openStreams plan machine).1.error.ShowsOutput ∧
      (plan.output ≠ .merged →
        (assembly.openStreams plan machine).1.output.isStored = true) := by
  obtain ⟨pipe, before, output⟩ := assembly.output_openStreams plan machine
  obtain ⟨errorPipe, errorBefore, error⟩ := assembly.error_openStreams plan machine
  rw [output, error]
  exact ⟨assembly.not_showsOutput_openSink pipe captured.output,
    assembly.not_showsOutput_openSink errorPipe captured.error,
    fun apart => assembly.isStored_openSink pipe (captured.stored apart)⟩

/-! ### What stages are given -/

def ResolvedCommand.isNested : ResolvedCommand → Bool
  | .nested _ => true
  | _ => false

namespace StageSpec

/--
The places that a stage is given to write to, also those that what it writes
is delivered to later.  Code without a buffer writes to the terminal.
-/
def outlets (spec : StageSpec) (plan : StagePlan) (streams : StageStreams) (machine : Machine) :
    List Endpoint :=
  match spec.command with
  | .external _ => [streams.output, streams.error]
  | .callable callable =>
    if callable.mainThread then
      let (output, outputFeeds, first) := Assembly.defer machine streams.output
      let (error, errorFeeds, _) := Assembly.defer first streams.error
      output :: error :: (outputFeeds ++ errorFeeds).map Prod.snd
    else [streams.output, streams.error]
  | .nested _ =>
    let (output, feeds, _) := hostOutput machine plan.output streams.output
    output.elim .terminalOutput (.buffer · false false) :: feeds.map Prod.snd

variable {spec : StageSpec} {plan : StagePlan} {streams : StageStreams} {machine : Machine}

theorem not_showsOutput_outlets (plain : spec.command.isNested = false)
    (output : ¬ streams.output.ShowsOutput) (error : ¬ streams.error.ShowsOutput) :
    ∀ endpoint ∈ spec.outlets plan streams machine, ¬ endpoint.ShowsOutput := by
  intro endpoint mem
  unfold outlets at mem
  cases command : spec.command with
  | external path => grind
  | callable callable =>
    rw [command] at mem
    dsimp only at mem
    split at mem
    · obtain ⟨first, firstFeeds⟩ := Assembly.not_showsOutput_defer machine output
      generalize Assembly.defer machine streams.output = deferred at mem first firstFeeds
      obtain ⟨second, secondFeeds⟩ := Assembly.not_showsOutput_defer deferred.2.2 error
      grind
    · grind
  | nested code =>
    rw [command] at plain
    cases plain

variable (machine) in
theorem hostOutput_of_stored (stored : streams.output.isStored = true)
    (hidden : ¬ streams.output.ShowsOutput) (apart : plan.output ≠ .merged) :
    ∃ number, (hostOutput machine plan.output streams.output).1 = some number ∧
      ∀ feed ∈ (hostOutput machine plan.output streams.output).2.1, ¬ feed.2.ShowsOutput := by
  rcases output : plan.output with sink | _
  · have fed := (Assembly.not_showsOutput_defer machine hidden).2
    obtain ⟨number, live, closes, feeds, after, deferred⟩ :=
      Assembly.defer_of_stored machine stored
    simpa [deferred, hostOutput] using fed
  · exact absurd output apart

theorem showsOutput_outlets_iff (output : ¬ streams.output.ShowsOutput)
    (error : ¬ streams.error.ShowsOutput)
    (stored : plan.output ≠ .merged → streams.output.isStored = true) :
    (∃ endpoint ∈ spec.outlets plan streams machine, endpoint.ShowsOutput) ↔
      spec.command.isNested = true ∧ plan.output = .merged := by
  cases nested : spec.command.isNested with
  | false =>
    refine iff_of_false ?_ fun both => by cases both.1
    rintro ⟨endpoint, mem, shows⟩
    exact not_showsOutput_outlets nested output error endpoint mem shows
  | true =>
    obtain ⟨code, command⟩ : ∃ code, spec.command = .nested code := by
      cases command : spec.command with
      | nested code => exact ⟨code, rfl⟩
      | external | callable =>
        rw [command] at nested
        cases nested
    by_cases merged : plan.output = .merged
    · refine iff_of_true ⟨.terminalOutput, ?_, Endpoint.showsOutput_terminalOutput⟩ ⟨rfl, merged⟩
      simp only [outlets, command, merged, hostOutput, Option.elim, List.mem_cons, true_or]
    · obtain ⟨number, buffered, feeds⟩ :=
        hostOutput_of_stored machine (stored merged) output merged
      refine iff_of_false ?_ fun both => merged both.2
      rintro ⟨endpoint, mem, shows⟩
      simp only [outlets, command, buffered, Option.elim, List.mem_cons, List.mem_map] at mem
      rcases mem with rfl | ⟨feed, fed, rfl⟩
      · exact Endpoint.not_showsOutput_buffer number false shows
      · exact feeds feed fed shows

end StageSpec

/-! ### Pipelines that start -/

/-- A run of the stages of a pipeline comes to start a stage with some streams. -/
inductive Assembly.Starts (rounds : Nat) (runner : NestedRunner) (grouped : Bool) :
    Assembly → List (StageSpec × StagePlan) → Shell →
      StageSpec → StagePlan → StageStreams → Prop
  | first {assembly : Assembly} {spec : StageSpec} {plan : StagePlan}
      {rest : List (StageSpec × StagePlan)} {shell : Shell} :
      Starts rounds runner grouped assembly ((spec, plan) :: rest) shell spec plan
        (assembly.openStreams plan shell.machine).1
  | next {assembly : Assembly} {spec : StageSpec} {plan : StagePlan}
      {rest : List (StageSpec × StagePlan)} {shell after : Shell} {stage : Stage}
      {laterSpec : StageSpec} {laterPlan : StagePlan} {laterStreams : StageStreams}
      (started : spec.startStage rounds runner assembly plan
        (assembly.openStreams plan shell.machine).1
        { shell with machine := (assembly.openStreams plan shell.machine).2 } =
          some (.ok stage, after))
      (later : Starts rounds runner grouped
        (assembly.push grouped
          ((assembly.openStreams plan shell.machine).1.pipe? shell.machine.pipes.size)
          (observation? plan (assembly.openStreams plan shell.machine).1
            (assembly.openStreams plan shell.machine).2) stage)
        rest after laterSpec laterPlan laterStreams) :
      Starts rounds runner grouped assembly ((spec, plan) :: rest) shell
        laterSpec laterPlan laterStreams

theorem Assembly.Starts.exists_openStreams {rounds : Nat} {runner : NestedRunner} {grouped : Bool}
    {assembly : Assembly} {stages : List (StageSpec × StagePlan)} {shell : Shell}
    {streams : StageStreams}
    (starts : Starts rounds runner grouped assembly stages shell spec plan streams) :
    (spec, plan) ∈ stages ∧ ∃ current machine, streams = (openStreams current plan machine).1 := by
  induction starts with
  | first => exact ⟨List.mem_cons_self, _, _, rfl⟩
  | next _ _ ih => exact ⟨List.mem_cons_of_mem _ ih.1, ih.2⟩

/-- Two runners do the same with code that has a buffer to write to. -/
structure NestedRunner.AgreeOnBuffers (first second : NestedRunner) : Prop where
  callStack : first.callStack = second.callStack
  run (code : NestedAlias) (arguments : List String) (input : Option Endpoint) (number : Nat) :
    first.run code arguments ⟨input, some number⟩ = second.run code arguments ⟨input, some number⟩

section Agreement

variable {first second : NestedRunner}

variable {spec : StageSpec} {plan : StagePlan} {streams : StageStreams}

theorem StageSpec.runNested_congr (agree : first.AgreeOnBuffers second) {code : NestedAlias}
    (buffered : ∀ machine, ∃ number,
      (hostOutput machine plan.output streams.output).1 = some number) :
    spec.runNested first code plan streams = spec.runNested second code plan streams := by
  unfold runNested
  have runs (input : Option Endpoint) (machine : Machine) :
      first.run code spec.arguments ⟨input, (hostOutput machine plan.output streams.output).1⟩ =
        second.run code spec.arguments
          ⟨input, (hostOutput machine plan.output streams.output).1⟩ := by
    obtain ⟨number, some⟩ := buffered machine
    rw [some]
    exact agree.run code spec.arguments input number
  simp only [runs]

theorem StageSpec.startStage_congr (agree : first.AgreeOnBuffers second) (rounds : Nat)
    (assembly : Assembly) (buffered : spec.command.isNested = true → ∀ machine, ∃ number,
      (hostOutput machine plan.output streams.output).1 = some number) :
    spec.startStage rounds first assembly plan streams =
      spec.startStage rounds second assembly plan streams := by
  unfold startStage
  cases command : spec.command with
  | external path => rfl
  | callable callable => rw [agree.callStack]
  | nested code =>
    rw [command] at buffered
    exact runNested_congr agree (buffered rfl)

/-- Runners that agree on buffers start the same stages alike, unless code has merged output. -/
theorem Assembly.startAll_congr (agree : first.AgreeOnBuffers second) (rounds : Nat)
    (grouped : Bool) {stages : List (StageSpec × StagePlan)}
    (captured : ∀ stage ∈ stages, stage.2.IsCaptured ∧
      (stage.1.command.isNested = true → stage.2.output ≠ .merged)) (assembly : Assembly) :
    startAll rounds first grouped assembly stages =
      startAll rounds second grouped assembly stages := by
  induction stages generalizing assembly with
  | nil => rfl
  | cons stage rest ih =>
    obtain ⟨spec, plan⟩ := stage
    obtain ⟨planned, apart⟩ := captured (spec, plan) List.mem_cons_self
    refine bind_congr fun shell => ?_
    have starts : spec.startStage rounds first assembly plan
        (assembly.openStreams plan shell.machine).1 =
          spec.startStage rounds second assembly plan
            (assembly.openStreams plan shell.machine).1 := by
      obtain ⟨output, error, stored⟩ := planned.openStreams assembly shell.machine
      refine StageSpec.startStage_congr agree rounds assembly fun nested machine => ?_
      obtain ⟨number, buffered, _⟩ :=
        StageSpec.hostOutput_of_stored machine (stored (apart nested)) output (apart nested)
      exact ⟨number, buffered⟩
    dsimp only
    rw [starts]
    refine bind_congr fun _ => bind_congr fun found => ?_
    cases found with
    | error error => rfl
    | ok stage => exact ih (fun other mem => captured other (List.mem_cons_of_mem _ mem)) _

theorem Pipeline.assemble_congr (agree : first.AgreeOnBuffers second) {specs : List StageSpec}
    {last : StageSpec} (isLast : specs.getLast? = some last)
    (captures : last.capture.capturesStdout = true)
    (apart : ∀ spec ∈ specs, spec.command.isNested = true → spec.output ≠ .merged)
    (rounds : Nat) (settings : Settings) (host : HostStreams) :
    assemble rounds settings host first specs = assemble rounds settings host second specs := by
  unfold assemble
  rw [isLast]
  refine bind_congr fun session => ?_
  have starts (grouped : Bool) (assembly : Assembly) :
      Assembly.startAll rounds first grouped assembly
          (specs.zip ((wiring session settings host last).plan specs)) =
        Assembly.startAll rounds second grouped assembly
          (specs.zip ((wiring session settings host last).plan specs)) := by
    refine Assembly.startAll_congr agree rounds grouped (fun stage mem => ?_) assembly
    obtain ⟨member, captured, merged⟩ := WiringContext.isCaptured_of_mem captures mem
    exact ⟨captured, fun nested => mt merged.mp (apart stage.1 member nested)⟩
  simp only [starts]

end Agreement

namespace Pipeline

def ComesToStart (rounds : Nat) (settings : Settings) (host : HostStreams) (runner : NestedRunner)
    (specs : List StageSpec) (before : Shell) (spec : StageSpec) (plan : StagePlan)
    (streams : StageStreams) : Prop :=
  ∃ last assembly prepared, specs.getLast? = some last ∧
    prepare last before = some (assembly, prepared) ∧
    Assembly.Starts rounds runner
      ((wiring before.session settings host last).jobControl || last.background) assembly
      (specs.zip ((wiring before.session settings host last).plan specs)) prepared
      spec plan streams

end Pipeline

/--
A stage of a captured pipeline is given a place that shows output if and only
if it is code with merged output, whatever the machine is like when the stage
is started.  Without such a stage, code is run only with a buffer to write to:
what a runner would do at the terminal makes no difference.
-/
theorem captured_pipelines_show_output_iff {specs : List StageSpec} {last : StageSpec}
    (isLast : specs.getLast? = some last) (captures : last.capture.capturesStdout = true)
    (rounds : Nat) (settings : Settings) (host : HostStreams) (runner : NestedRunner) :
    (∀ (before : Shell) (spec : StageSpec) (plan : StagePlan) (streams : StageStreams),
      Pipeline.ComesToStart rounds settings host runner specs before spec plan streams →
        ∀ machine, (∃ endpoint ∈ spec.outlets plan streams machine, endpoint.ShowsOutput) ↔
          spec.command.isNested = true ∧ spec.output = .merged) ∧
      ((∀ spec ∈ specs, spec.command.isNested = true → spec.output ≠ .merged) →
        ∀ other, runner.AgreeOnBuffers other →
          Pipeline.assemble rounds settings host runner specs =
            Pipeline.assemble rounds settings host other specs) := by
  refine ⟨?_, fun apart other agree =>
    Pipeline.assemble_congr agree isLast captures apart rounds settings host⟩
  rintro before spec plan streams ⟨found, assembly, prepared, same, _, starts⟩ machine
  obtain rfl : found = last := Option.some.inj (same.symm.trans isLast)
  obtain ⟨mem, current, opened, rfl⟩ := starts.exists_openStreams
  obtain ⟨_, captured, merged⟩ := WiringContext.isCaptured_of_mem captures mem
  obtain ⟨output, error, stored⟩ := captured.openStreams current opened
  rw [StageSpec.showsOutput_outlets_iff output error stored, merged]

def printingCode : NestedAlias :=
  .function ⟨0, 0, "f", [], [.simple (.expression (.call (.name "print") [.str "x"]))]⟩

def printingStage (output : StreamTarget) : StageSpec :=
  { arguments := ["f"]
    command := .nested printingCode
    aliasName := some "f"
    input := none
    output
    error := .standard
    capture := .stdout
    directory := "/"
    environment := ∅
    index := 0
    background := false
    negated := false
    threadable := false }

/-- A shell that knows the code as an alias. -/
def printingShell : Shell :=
  Shell.start (.start ⟨∅, "/"⟩ [])
    { Session.start "/" ∅ false with aliases := .ofList [("f", .nested printingCode)] }

theorem captured_pipelines_show_output_iff_printing :
    (printingStage .merged).capture.capturesStdout = true ∧
      (∃ plan streams,
        Pipeline.ComesToStart 1 .default .terminal .absent [printingStage .merged] printingShell
          (printingStage .merged) plan streams ∧
        ∃ endpoint ∈ (printingStage .merged).outlets plan streams printingShell.machine,
          endpoint.ShowsOutput) ∧
      ∀ other, NestedRunner.absent.AgreeOnBuffers other →
        Pipeline.assemble 1 .default .terminal .absent [printingStage .standard] =
          Pipeline.assemble 1 .default .terminal other [printingStage .standard] := by
  refine ⟨rfl, ?_, ?_⟩
  · obtain ⟨shows, _⟩ := captured_pipelines_show_output_iff
      (show [printingStage .merged].getLast? = some (printingStage .merged) from rfl) rfl 1 .default
      .terminal .absent
    have comes : ∃ plan streams,
        Pipeline.ComesToStart 1 .default .terminal .absent [printingStage .merged] printingShell
          (printingStage .merged) plan streams :=
      ⟨_, _, printingStage .merged, _, _, rfl, rfl, .first⟩
    obtain ⟨plan, streams, comes⟩ := comes
    exact ⟨plan, streams, comes, (shows _ _ _ _ comes _).mpr ⟨rfl, rfl⟩⟩
  · obtain ⟨_, needs⟩ := captured_pipelines_show_output_iff
      (show [printingStage .standard].getLast? = some (printingStage .standard) from rfl) rfl 1
      .default .terminal .absent
    refine needs fun spec mem _ => ?_
    rw [List.mem_singleton.mp mem]
    rintro ⟨⟩

/-- The code is captured, but what it prints appears on the terminal and not in the text. -/
theorem captured_code_shows_merged_output :
    printingShell.machine.shown.toBytes = [] ∧
      ((Interpreter.ofDepth 1 4).captured
          (.pipeline [⟨[[.literal "f" false]], [.outToErr]⟩] false) printingShell).map
        (fun answer => (answer.1.toOption, answer.2.machine.shown.toBytes)) =
          some (some "", Utf8.encode "x\n") := by
  decide +kernel

end HybridShell
