import HybridShell.Evaluation.Call
import HybridShell.Pipeline.Assembly
import HybridShell.Pipeline.Building

/-!
# Running chains

Pipelines run from left to right.  A failure is raised only when the whole
chain has run.
-/

namespace HybridShell

namespace Chain

/-- What a chain did: its status, and the pipelines that started, in order. -/
structure Report where
  code : Int
  started : List Nat
  deriving Repr, DecidableEq

namespace Report

def after (first second : Report) : Report :=
  ⟨second.code, first.started ++ second.started⟩

def inverted (report : Report) : Report :=
  { report with code := if report.code = 0 then 1 else 0 }

end Report

def runWith {m : Type → Type} [Monad m]
    (runPipeline : List Command → Bool → Bool → m Report) (negated : Bool) : Chain → m Report
  | pipeline commands background => runPipeline commands background negated
  | and left right => do
    let first ← runWith runPipeline negated left
    if first.code = 0 then return first.after (← runWith runPipeline negated right)
    else return first
  | or left right => do
    let first ← runWith runPipeline negated left
    if first.code ≠ 0 then return first.after (← runWith runPipeline negated right)
    else return first
  | not operand => do return (← runWith runPipeline (!negated) operand).inverted

end Chain

namespace CommandRun

variable (inner : Interpreter)

def wordPart : WordPart → Run WordPiece
  | .literal text quoted => return .text text (!quoted)
  | .env name => do
    return .text (((← get).session.env? name).getD ("$" ++ name)) false
  | .splice expression => do
    return .items (← Run.spliceArguments inner.rounds (← inner.expression expression))
  | .captured chain => do return .text (← inner.captured chain) false
  | .splitCaptured chain => do
    let text ← inner.captured chain
    return .items ((Text.splitBlanks text.toList).map String.ofList)
  | .tilde => return .tilde

def word (word : Word) : Run ExpandedWord :=
  word.mapM (wordPart inner)

def redirect : Redirect → Run ExpandedRedirect
  | .file stream mode target => do return .file stream mode (← word inner target)
  | .errToOut => return .errToOut
  | .outToErr => return .outToErr

def command (command : Command) : Run ExpandedCommand := do
  let words ← command.words.mapM (word inner)
  let redirects ← command.redirects.mapM (redirect inner)
  return ⟨words, redirects⟩

def start (runner : NestedRunner) (capture : Capture) (commands : List Command)
    (background negated : Bool) : Run Nat := do
  let blueprint := Blueprint.ofSession (← get).session capture background negated
  let specs ← commands.zipIdx.mapM fun (written, index) => do
    let expanded ← command inner written
    Run.ofProcess (blueprint.build expanded index)
  let shell ← get
  Run.ofProcess (Pipeline.assemble inner.rounds blueprint.settings
    ⟨shell.inputOverride, shell.outputOverride⟩ runner specs)

def runner : NestedRunner where
  run := Call.nested inner
  callStack := return (← get).callStack

def registerBackground (number : Nat) : Action Unit := do
  match ← JobControl.addBackground number with
  | none => return
  | some id =>
    let shell ← get
    if shell.session.interactive then
      let ids := ((shell.pipeline? number).map Pipeline.processIds).getD []
      let mark := "[" ++ toString id ++ "]"
      modify (·.complain (ids.getLast?.elim mark fun last => mark ++ " " ++ toString last))

def setLastReturncode (code : Int) : Run Unit :=
  modify fun shell => { shell with lastReturncode := code }

def reportsAtOnce (capture : Capture) (settings : Settings) : EvalError → Option ProcessError
  | .process .interrupted => none
  | .process error =>
    if capture ≠ .object && !settings.raiseOnFailure then some error else none
  | _ => none

def pipeline (capture : Capture) (commands : List Command) (background negated : Bool) :
    Run Chain.Report := do
  let started ← ExceptT.mk do
    return .ok (← (start inner (runner inner) capture commands background negated).run)
  match started with
  | .error error =>
    match reportsAtOnce capture (← get).session.settings error with
    | none => throw error
    | some failure =>
      modify (·.complain ("duosh: " ++ failure.message))
      setLastReturncode failure.exitCode
      return ⟨failure.exitCode, []⟩
  | .ok number =>
    let code ←
      if background then do
        registerBackground number
        pure 0
      else Run.ofProcess (JobControl.waitForeground inner.rounds number)
    setLastReturncode code
    return ⟨code, [number]⟩

def chain (capture : Capture) (chain : Chain) : Run Chain.Report := do
  let report ← chain.runWith (pipeline inner capture) false
  setLastReturncode report.code
  return report

def dropLineEnd (text : String) : String :=
  match text.toList.reverse with
  | '\n' :: '\r' :: rest => String.ofList rest.reverse
  | '\n' :: rest => String.ofList rest.reverse
  | _ => text

def outputText (rounds : Nat) (started : List Nat) : Run String := do
  let texts ← started.mapM fun number =>
    Run.ofProcess (Action.withPipeline number (Pipeline.outputOf rounds))
  return dropLineEnd (String.join texts)

def captured (written : Chain) : Run String := do
  let report ← chain inner .stdout written
  outputText inner.rounds report.started

def handle (number : Nat) : Run Value := do
  let arguments := (((← get).pipeline? number).map Pipeline.arguments).getD []
  return .pipeline ⟨number, arguments⟩

def raiseFailure (report : Chain.Report) : Run Unit := do
  let shell ← get
  if report.code ≠ 0 && shell.session.settings.raiseOnFailure then
    match report.started.getLast?.bind shell.pipeline? with
    | none => return
    | some last =>
      throw (.process (last.failure?.getD (.failed last.executedCommand report.code)))

def value (capture : Capture) (written : Chain) : Run Value := do
  match capture, written with
  | .object, .pipeline commands background =>
    let number ← start inner (runner inner) .object commands background false
    if background then registerBackground number
    handle number
  | .object, written =>
    let report ← chain inner capture written
    match report.started.getLast? with
    | some number => handle number
    | none => return .none
  | .stdout, written =>
    let report ← chain inner capture written
    raiseFailure report
    return .str (← outputText inner.rounds report.started)
  | _, written =>
    let report ← chain inner capture written
    raiseFailure report
    return .none

end CommandRun

end HybridShell
