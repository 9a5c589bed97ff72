import HybridShell.Evaluation.Statement
import HybridShell.Proofs.OutsideActions
import HybridShell.Proofs.StrayLoopEnds

/-!
# What constructs take over from their parts

An interpreter evaluates a construct with the help of another one, which
evaluates its parts.  A likeness is a relation between runs that whatever is
put together from them takes over.  So interpreters that are alike in the parts
of a construct are alike in the construct.  A likeness may leave out the ends of
loops; then it is taken over from code without a stray `break` or `continue`.
-/

namespace HybridShell

def EvalError.endsRound : EvalError → Bool
  | leftLoop | nextRound => true
  | _ => false

/-- A relation between shells that allows what code of the program does by itself. -/
class AllowsCode (relation : Shell → Shell → Prop) : Prop extends AllowsPipelines relation where
  surroundings (shell : Shell) (output : Option Nat) (input : Option Endpoint) (status : Int)
    (unit units : Nat) :
    relation shell
      { shell with
        outputOverride := output, inputOverride := input, lastReturncode := status, unit, units }
  assignment (shell : Shell) (name : String) (value : Value) :
    relation shell (shell.setVariable name value)
  inFrame {α : Type} {body : Run α} (name : String) (locals : Dictionary Value)
    (keeps : Run.Keeps relation body) : Run.Keeps relation (Run.inFrame name locals body)
  outsideCalls {α : Type} {body : Run α} (keeps : Run.Keeps relation body) :
    Run.Keeps relation (Run.outsideCalls body)

def Action.IsOrdinary {α : Type} (action : Action α) : Prop :=
  ∀ (relation : Shell → Shell → Prop) [AllowsCode relation], Keeps relation action

/--
A relation between runs that whatever is put together from such runs takes
over, with the early ends that it allows.  It may leave out the ends of loops.
-/
structure Run.Likeness where
  Alike {α : Type} (first second : Run α) : Prop
  Allows (error : EvalError) : Prop
  allows {error : EvalError} (other : error.endsRound = false) : Allows error
  pure {α : Type} (value : α) : Alike (Pure.pure value) (Pure.pure value)
  throw {α : Type} {error : EvalError} (allowed : Allows error) :
    Alike (MonadExcept.throw error : Run α) (MonadExcept.throw error)
  exhausted {α : Type} : Alike (Run.exhausted : Run α) Run.exhausted
  lift {α : Type} {action : Action α} (ordinary : action.IsOrdinary) :
    Alike (ExceptT.lift action : Run α) (ExceptT.lift action)
  ofProcess {α : Type} {action : Action (Except ProcessError α)} (ordinary : action.IsOrdinary) :
    Alike (Run.ofProcess action) (Run.ofProcess action)
  checkSignals : Alike Run.checkSignals Run.checkSignals
  bind {α β : Type} {first second : Run α} {next other : α → Run β} (alike : Alike first second)
    (goesOn : ∀ value, Alike (next value) (other value)) : Alike (first >>= next) (second >>= other)
  /-- The early end of a run that is given as a value is one of those that are allowed. -/
  attempt {α β : Type} {first second : Run α} {next other : Except EvalError α → Run β}
    (alike : Alike first second)
    (goesOn : ∀ found, (∀ error, found = .error error → Allows error) →
      Alike (next found) (other found)) :
    Alike ((ExceptT.mk do return .ok (← first.run) : Run (Except EvalError α)) >>= next)
      ((ExceptT.mk do return .ok (← second.run) : Run (Except EvalError α)) >>= other)
  inUnit {α : Type} {first second : Run α} (unit : Nat) (alike : Alike first second) :
    Alike (Call.inUnit unit first) (Call.inUnit unit second)

namespace Run.Likeness

variable {α β : Type} {like : Likeness}

def Accepts (like : Likeness) (run : Run α) : Prop :=
  like.Alike run run

/-- Code that strays is allowed only where all early ends are. -/
def Fits (like : Likeness) (strays : Bool) : Prop :=
  strays = true → ∀ error, like.Allows error

theorem fits_of_stays {strays : Bool} (stays : strays = false) : like.Fits strays := by
  rintro rfl
  cases stays

theorem Fits.left {first second : Bool} (fits : like.Fits (first || second)) : like.Fits first :=
  fun strays => fits (by rw [strays, Bool.true_or])

theorem Fits.right {first second : Bool} (fits : like.Fits (first || second)) :
    like.Fits second :=
  fun strays => fits (by rw [strays, Bool.or_true])

theorem Fits.of_decideUnit {unit decided : List Statement} {scope : Scope}
    (ok : decideUnit unit scope = .ok decided) (fits : like.Fits (Straying.block unit)) :
    like.Fits (Straying.block decided) := by
  cases strays : Straying.block unit with
  | true =>
    rw [strays] at fits
    exact fun _ => fits rfl
  | false => exact fits_of_stays (straying_of_decideUnit ok strays)

theorem fail {error : EvalError} (other : error.endsRound = false) :
    like.Accepts (MonadExcept.throw error : Run α) :=
  like.throw (like.allows other)

theorem monadLift {action : Action α} (ordinary : action.IsOrdinary) :
    like.Accepts (MonadLiftT.monadLift action : Run α) :=
  like.lift ordinary

theorem get : like.Accepts (MonadState.get : Run Shell) :=
  like.lift fun _ _ => .get

theorem modify {change : Shell → Shell}
    (ordinary : (modify change : Action Unit).IsOrdinary) : like.Accepts (modify change : Run Unit) :=
  like.lift ordinary

variable {first second : Run α}

theorem map (change : α → β) (alike : like.Alike first second) :
    like.Alike (change <$> first) (change <$> second) := by
  exact like.bind alike fun value => like.pure (change value)

theorem ite_bind {condition : Prop} [Decidable condition] {next other : Run β}
    (alike : like.Alike first second) (goesOn : like.Alike next other) :
    like.Alike (if condition then first >>= fun _ => next else next)
      (if condition then second >>= fun _ => other else other) := by
  split
  · exact like.bind alike fun _ => goesOn
  · exact goesOn

theorem mapM {step other : β → Run α} (items : List β)
    (each : ∀ item, like.Alike (step item) (other item)) :
    like.Alike (items.mapM step) (items.mapM other) := by
  induction items with
  | nil =>
    exact like.pure []
  | cons item rest ih =>
    rw [List.mapM_cons, List.mapM_cons]
    refine like.bind (each item) fun value => like.bind ih fun values => ?_
    exact like.pure (value :: values)

theorem ofHost (found : Except HostFault α) : like.Accepts (Run.ofHost found) := by
  cases found with
  | ok value => exact like.pure value
  | error fault => exact fail rfl

theorem ofParse (found : Except ParseError α) : like.Accepts (Run.ofParse found) := by
  cases found with
  | ok value => exact like.pure value
  | error error => exact fail rfl

theorem ofParse_bind {found : Except ParseError α} {next other : α → Run β}
    (goesOn : ∀ value, found = .ok value → like.Alike (next value) (other value)) :
    like.Alike (Run.ofParse found >>= next) (Run.ofParse found >>= other) := by
  cases found with
  | ok value => exact goesOn value rfl
  | error error => exact fail rfl

end Run.Likeness

open Run (Likeness)
open Run.Likeness (fail)

variable {α : Type} {like : Likeness}

/-! ### Waiting for values -/

namespace Run

theorem alike_waiting (number : Nat) {wait : Machine → Pipeline → Option (Waited α)}
    (leaves : Pipeline.LeavesInPlace wait) : like.Accepts (waiting number wait) :=
  like.lift fun _ _ => Action.keeps_withPipeline number leaves

variable (rounds : Nat)

theorem alike_truthy (value : Value) : like.Accepts (truthy rounds value) := by
  cases value with
  | pipeline handle => exact alike_waiting handle.number (Pipeline.leavesInPlace_succeeded rounds)
  | _ => exact like.pure _

theorem alike_plainText (value : Value) : like.Accepts (plainText rounds value) := by
  cases value with
  | pipeline handle =>
    refine like.bind (alike_waiting handle.number (Pipeline.leavesInPlace_outputOf rounds)) ?_
    intro found
    split <;> exact like.pure _
  | _ => exact like.pure _

theorem alike_spliceArguments (value : Value) : like.Accepts (spliceArguments rounds value) := by
  cases value with
  | none => exact like.pure _
  | list items => exact like.mapM items (alike_plainText rounds)
  | _ => exact like.bind (alike_plainText rounds _) fun _ => like.pure _

theorem alike_items (value : Value) : like.Accepts (items rounds value) := by
  cases value with
  | list | str => exact like.pure _
  | pipeline handle =>
    exact like.bind (alike_waiting _ (Pipeline.leavesInPlace_lines rounds)) fun _ => like.pure _
  | _ => exact fail rfl

end Run

namespace Handle

theorem alike_pipeline (handle : PipelineHandle) : like.Accepts (pipeline handle) := by
  refine like.bind like.get fun shell => ?_
  split
  · exact like.pure _
  · exact like.exhausted

theorem alike_waiting (handle : PipelineHandle)
    {wait : Machine → Pipeline → Option (Waited (Except ProcessError α))}
    (leaves : Pipeline.LeavesInPlace wait) : like.Accepts (waiting handle wait) :=
  like.ofProcess fun _ _ => Action.keeps_withPipeline handle.number leaves

variable (rounds : Nat)

theorem alike_ended (handle : PipelineHandle) : like.Accepts (ended rounds handle) :=
  like.bind (alike_waiting handle (Pipeline.leavesInPlace_wait rounds)) fun _ =>
    alike_pipeline handle

theorem alike_property (handle : PipelineHandle) (name : String) :
    like.Accepts (property rounds handle name) := by
  unfold property
  split
  -- Each of three attributes has two names.
  iterate 2
    exact like.bind (alike_waiting handle (Pipeline.leavesInPlace_returncode rounds)) fun _ =>
      like.pure _
  iterate 2
    exact like.bind (alike_waiting handle (Pipeline.leavesInPlace_outputOf rounds)) fun _ =>
      like.pure _
  iterate 2
    exact like.bind (alike_waiting handle (Pipeline.leavesInPlace_errorsOf rounds)) fun _ =>
      like.pure _
  · exact like.bind (Run.alike_waiting _ (Pipeline.leavesInPlace_lines rounds)) fun _ =>
    like.pure _
  · exact like.bind (alike_pipeline handle) fun _ => like.pure _
  · exact like.bind (alike_pipeline handle) fun _ => like.pure _
  · exact like.pure _
  · exact like.bind (alike_pipeline handle) fun _ => like.pure _
  · refine like.bind (alike_ended rounds handle) fun pipeline => ?_
    split <;> exact like.pure _
  · exact like.bind (alike_pipeline handle) fun _ => like.pure _
  · exact like.bind (alike_ended rounds handle) fun _ => like.pure _
  · exact like.bind (alike_pipeline handle) fun _ => like.pure _
  · exact fail rfl

theorem alike_method (handle : PipelineHandle) (name : String) :
    like.Accepts (method rounds handle name) := by
  unfold method
  split
  · exact like.bind (alike_waiting handle (Pipeline.leavesInPlace_wait rounds)) fun _ =>
    like.pure _
  · refine like.bind (like.monadLift fun _ _ => ?_) fun _ => like.pure _
    exact Action.keeps_pollPipeline handle.number
  · refine like.bind (alike_ended rounds handle) fun pipeline => ?_
    split
    · exact fail rfl
    · exact like.pure _
  · refine like.bind (like.monadLift fun _ _ => ?_) fun _ => like.pure _
    exact Action.keeps_signalPipeline handle.number Pipeline.pipesStay_interrupt
  · refine like.bind (like.monadLift fun _ _ => ?_) fun _ => like.pure _
    exact Action.keeps_signalPipeline handle.number Pipeline.pipesStay_terminate
  · exact alike_property rounds handle name

end Handle

theorem Call.alike_function {first second : Interpreter} {called : Function}
    {arguments : List Value}
    (runs : like.Alike
      (Run.inFrame called.name (.ofList (called.parameters.zip arguments))
        (first.host (.function called.unit called.body)))
      (Run.inFrame called.name (.ofList (called.parameters.zip arguments))
        (second.host (.function called.unit called.body)))) :
    like.Alike (function first called arguments) (function second called arguments) := by
  unfold function
  split
  · exact like.bind (fail rfl) fun _ => runs
  · exact runs

structure Interpreter.Alike (like : Likeness) (first second : Interpreter) : Prop where
  rounds : second.rounds = first.rounds
  expression (written : Expr) : like.Alike (first.expression written) (second.expression written)
  captured (written : Chain) : like.Alike (first.captured written) (second.captured written)
  block {body : List Statement} (fits : like.Fits (Straying.block body)) :
    like.Alike (first.block body) (second.block body)
  /-- A round of a loop meets the ends of its body, so that the body may stray. -/
  round (body : List Statement) :
    like.Alike (StatementRun.round first body) (StatementRun.round second body)
  repeatWhile (condition : Expr) (body : List Statement) :
    like.Alike (first.repeatWhile condition body) (second.repeatWhile condition body)
  function (name : String) (locals : Dictionary Value) (unit : Nat) (body : List Statement) :
    like.Alike (Run.inFrame name locals (first.host (.function unit body)))
      (Run.inFrame name locals (second.host (.function unit body)))
  file (text : String) :
    like.Alike (Run.outsideCalls (first.host (.fileText text)))
      (Run.outsideCalls (second.host (.fileText text)))
  /-- The code of an alias runs as a stage of a pipeline. -/
  assemble (settings : Settings) (host : HostStreams) (specs : List StageSpec) :
    like.Alike
      (Run.ofProcess (Pipeline.assemble first.rounds settings host (CommandRun.runner first) specs))
      (Run.ofProcess
        (Pipeline.assemble first.rounds settings host (CommandRun.runner second) specs))

section Leaves

/-! ### What has no parts -/

theorem CommandRun.alike_setLastReturncode (code : Int) :
    like.Accepts (setLastReturncode code) :=
  like.modify fun _ _ => .modify fun _ => AllowsCode.surroundings _ _ _ _ _ _

theorem CommandRun.alike_outputText (rounds : Nat) (started : List Nat) :
    like.Accepts (outputText rounds started) := by
  refine like.bind (like.mapM _ fun number => like.ofProcess fun _ _ => ?_) fun _ => like.pure _
  exact Action.keeps_withPipeline number (Pipeline.leavesInPlace_outputOf rounds)

theorem CommandRun.alike_handle (number : Nat) : like.Accepts (handle number) :=
  like.bind like.get fun _ => like.pure _

theorem CommandRun.alike_raiseFailure (report : Chain.Report) :
    like.Accepts (raiseFailure report) := by
  refine like.bind like.get fun shell => ?_
  split
  · split
    · exact like.pure ()
    · exact fail rfl
  · exact like.pure ()

namespace Builtin

theorem alike_single (builtin : Builtin) (arguments : List Value) :
    like.Accepts (builtin.single arguments) := by
  unfold single
  split
  · exact like.pure _
  · exact fail rfl

theorem alike_environmentValue (name : String) : like.Accepts (environmentValue name) :=
  like.bind like.get fun _ => like.pure _

theorem alike_endShell (arguments : List Value) : like.Accepts (endShell arguments) := by
  unfold endShell
  split
  · exact fail rfl
  · exact like.bind (like.ofHost _) fun _ => fail rfl

theorem alike_modifySession (change : Session → Session) :
    like.Accepts (Action.modifySession change : Run Unit) :=
  like.monadLift fun _ _ => Action.keeps_modifySession change

theorem alike_addAlias (inner : Interpreter) (name meaning : Value) :
    like.Accepts (addAlias inner name meaning) := by
  refine like.bind (Run.alike_plainText inner.rounds name) fun name => ?_
  have sets (defined : Alias) : like.Accepts (do
      Action.modifySession fun session =>
        { session with aliases := session.aliases.insert name defined }
      return Value.none : Run Value) :=
    like.bind (alike_modifySession _) fun _ => like.pure _
  split
  · exact like.bind (like.ofParse _) sets
  · exact like.bind (like.map _ (like.mapM _ (Run.alike_plainText inner.rounds))) sets
  · exact like.bind (like.pure _) sets
  · exact like.bind (fail rfl) sets

theorem alike_forgetAlias (inner : Interpreter) (name : Value) :
    like.Accepts (forgetAlias inner name) := by
  refine like.bind (Run.alike_plainText inner.rounds name) fun name => ?_
  refine like.bind like.get fun shell => ?_
  exact like.bind (alike_modifySession _) fun _ => like.pure _

end Builtin

namespace ExpressionRun

theorem alike_lookUp (name : String) : like.Accepts (lookUp name) := by
  refine like.bind like.get fun shell => ?_
  split
  · exact like.pure _
  · split
    · exact like.pure _
    · exact fail rfl

variable (rounds : Nat)

theorem alike_joinMethod (separator : String) (arguments : List Value) :
    like.Accepts (Value.joinMethod (Run.plainText rounds) separator arguments) := by
  unfold Value.joinMethod
  split
  · exact like.bind (like.mapM _ (Run.alike_plainText rounds)) fun _ => like.pure _
  · exact like.pure _
  · exact like.pure _

theorem alike_fillPieces (pieces : List (List Char)) (arguments : List Value) :
    like.Accepts (Value.fillPieces (Run.plainText rounds) pieces arguments) := by
  fun_induction Value.fillPieces (Run.plainText rounds) pieces arguments with
  | case1 | case2 => exact like.pure _
  | case3 piece pieces argument arguments ih =>
    refine like.bind (Run.alike_plainText rounds argument) fun text => like.bind ih fun found => ?_
    split <;> exact like.pure _

theorem alike_formatMethod (template : String) (arguments : List Value) :
    like.Accepts (Value.formatMethod (Run.plainText rounds) template arguments) := by
  unfold Value.formatMethod
  split
  · exact like.pure _
  · refine like.bind (alike_fillPieces rounds _ arguments) fun found => ?_
    split <;> exact like.pure _

theorem alike_textMethod (text method : String) (arguments : List Value) :
    like.Accepts (textMethod rounds text method arguments) := by
  unfold textMethod
  split
  · exact like.bind (alike_joinMethod rounds text arguments) fun _ => like.ofHost _
  · exact like.bind (alike_formatMethod rounds text arguments) fun _ => like.ofHost _
  · split
    · exact like.ofHost _
    · exact fail rfl

theorem alike_method (receiver : Value) (name : String) (arguments : List Value) :
    like.Accepts (method rounds receiver name arguments) := by
  cases receiver with
  | str text => exact alike_textMethod rounds text name arguments
  | list items => exact like.ofHost _
  | pipeline handle => exact Handle.alike_method rounds handle name
  | _ => exact fail rfl

end ExpressionRun

theorem StatementRun.alike_setVariable (name : String) (value : Value) :
    like.Accepts (modify (·.setVariable name value) : Run Unit) :=
  like.modify fun _ _ => .modify fun shell => AllowsCode.assignment shell name value

end Leaves

variable {first second : Interpreter} (parts : first.Alike like second)

include parts

/-! ### Chains -/

namespace CommandRun

theorem alike_wordPart (part : WordPart) :
    like.Alike (wordPart first part) (wordPart second part) := by
  cases part with
  | literal text quoted => exact like.pure _
  | env name => exact like.bind like.get fun _ => like.pure _
  | splice expression =>
    refine like.bind (parts.expression expression) fun value => ?_
    rw [parts.rounds]
    exact like.bind (Run.alike_spliceArguments first.rounds value) fun _ => like.pure _
  | captured chain => exact like.bind (parts.captured chain) fun _ => like.pure _
  | splitCaptured chain => exact like.bind (parts.captured chain) fun _ => like.pure _
  | tilde => exact like.pure _

theorem alike_word (written : Word) : like.Alike (word first written) (word second written) :=
  like.mapM _ (alike_wordPart parts)

theorem alike_redirect (written : Redirect) :
    like.Alike (redirect first written) (redirect second written) := by
  cases written with
  | file stream mode target => exact like.bind (alike_word parts target) fun _ => like.pure _
  | errToOut | outToErr => exact like.pure _

theorem alike_command (written : Command) :
    like.Alike (command first written) (command second written) := by
  refine like.bind (like.mapM _ (alike_word parts)) fun words => ?_
  exact like.bind (like.mapM _ (alike_redirect parts)) fun redirects => like.pure _

variable (capture : Capture)

theorem alike_start (commands : List Command) (background negated : Bool) :
    like.Alike (start first (runner first) capture commands background negated)
      (start second (runner second) capture commands background negated) := by
  unfold start
  rw [parts.rounds]
  refine like.bind like.get fun shell => ?_
  refine like.bind (like.mapM _ fun numbered => ?_) fun specs => ?_
  · refine like.bind (alike_command parts numbered.1) fun expanded => like.ofProcess fun _ _ => ?_
    exact Blueprint.keeps_build _ expanded numbered.2
  · exact like.bind like.get fun shell => parts.assemble _ _ specs

theorem alike_pipeline (commands : List Command) (background negated : Bool) :
    like.Alike (pipeline first capture commands background negated)
      (pipeline second capture commands background negated) := by
  unfold pipeline
  rw [parts.rounds]
  refine like.attempt (alike_start parts capture commands background negated) ?_
  intro started allowed
  split
  · next error =>
    refine like.bind like.get fun shell => ?_
    split
    · exact like.throw (allowed error rfl)
    · refine like.bind (like.monadLift fun _ _ => Action.keeps_complain _) fun _ => ?_
      exact like.bind (alike_setLastReturncode _) fun _ => like.pure _
  · next number =>
    have ends (code : Int) : like.Accepts (do
        setLastReturncode code
        return Chain.Report.mk code [number]) :=
      like.bind (alike_setLastReturncode code) fun _ => like.pure _
    split
    · refine like.bind (like.monadLift fun _ _ => keeps_registerBackground number) fun _ => ?_
      exact like.bind (like.pure 0) ends
    · refine like.bind (like.ofProcess fun _ _ => ?_) ends
      exact JobControl.keeps_waitForeground _ number

theorem alike_runWith (capture : Capture) (negated : Bool) :
    (written : Chain) → like.Alike (written.runWith (pipeline first capture) negated)
      (written.runWith (pipeline second capture) negated)
  | .pipeline commands background => alike_pipeline parts capture commands background negated
  | .and left right => by
    refine like.bind (alike_runWith capture negated left) fun report => ?_
    split
    · exact like.bind (alike_runWith capture negated right) fun _ => like.pure _
    · exact like.pure _
  | .or left right => by
    refine like.bind (alike_runWith capture negated left) fun report => ?_
    split
    · exact like.bind (alike_runWith capture negated right) fun _ => like.pure _
    · exact like.pure _
  | .not operand => like.bind (alike_runWith capture (!negated) operand) fun _ => like.pure _

theorem alike_chain (written : Chain) :
    like.Alike (chain first capture written) (chain second capture written) := by
  refine like.bind (alike_runWith parts capture false written) fun report => ?_
  exact like.bind (alike_setLastReturncode report.code) fun _ => like.pure _

theorem alike_captured (written : Chain) :
    like.Alike (captured first written) (captured second written) := by
  refine like.bind (alike_chain parts .stdout written) fun report => ?_
  rw [parts.rounds]
  exact alike_outputText first.rounds report.started

theorem alike_value (written : Chain) :
    like.Alike (value first capture written) (value second capture written) := by
  unfold value
  rw [parts.rounds]
  split
  · refine like.bind (alike_start parts .object _ _ false) fun number => ?_
    refine like.ite_bind (like.monadLift fun _ _ => ?_) (alike_handle number)
    exact keeps_registerBackground number
  · refine like.bind (alike_chain parts _ _) fun report => ?_
    split
    · exact alike_handle _
    · exact like.pure _
  · refine like.bind (alike_chain parts _ _) fun report => ?_
    refine like.bind (alike_raiseFailure report) fun _ => ?_
    exact like.bind (alike_outputText first.rounds report.started) fun _ => like.pure _
  · refine like.bind (alike_chain parts _ _) fun report => ?_
    exact like.bind (alike_raiseFailure report) fun _ => like.pure _

end CommandRun

/-! ### Expressions -/

theorem Builtin.alike_runFile (name : String) :
    like.Alike (runFile first name) (runFile second name) := by
  refine like.bind like.get fun shell => ?_
  split
  · exact fail rfl
  · exact parts.file _

theorem Builtin.alike_call (builtin : Builtin) (arguments : List Value) :
    like.Alike (builtin.call first arguments) (builtin.call second arguments) := by
  have single : like.Accepts (builtin.single arguments) := alike_single builtin arguments
  have text (value : Value) : like.Accepts (Run.plainText first.rounds value) :=
    Run.alike_plainText first.rounds value
  have sameAlias (name meaning : Value) :
      addAlias second name meaning = addAlias first name meaning := by
    unfold addAlias
    rw [parts.rounds]
  have sameForget (name : Value) : forgetAlias second name = forgetAlias first name := by
    unfold forgetAlias
    rw [parts.rounds]
  unfold call
  simp only [parts.rounds, sameAlias, sameForget]
  cases builtin with
  | print =>
    refine like.bind (like.mapM _ text) fun lines => ?_
    refine like.bind (like.modify fun _ _ => .modify fun shell => ?_) fun _ => like.pure _
    exact AllowsOutside.outside shell (shell.pipesStay_writeOutput _) shell.session shell.jobs
  | len => exact like.bind single fun _ => like.ofHost _
  | str => exact like.bind single fun value => like.bind (text value) fun _ => like.pure _
  | repr => exact like.bind single fun _ => like.pure _
  | bool =>
    refine like.bind single fun value => ?_
    exact like.bind (Run.alike_truthy first.rounds value) fun _ => like.pure _
  | type => exact like.bind single fun _ => like.pure _
  | int | float => exact like.bind single fun _ => like.ofHost _
  | list =>
    refine like.bind single fun value => ?_
    exact like.bind (Run.alike_items first.rounds value) fun _ => like.pure _
  | range => exact like.ofHost _
  | env =>
    refine like.bind single fun value => ?_
    exact like.bind (text value) fun _ => alike_environmentValue _
  | exit => exact alike_endShell arguments
  | source =>
    refine like.bind single fun value => ?_
    exact like.bind (text value) fun name => alike_runFile parts name
  | defineAlias =>
    dsimp only
    split
    · exact alike_addAlias first _ _
    · exact fail rfl
  | unalias => exact like.bind single fun name => alike_forgetAlias first name

namespace ExpressionRun

theorem alike_call (callee : Value) (arguments : List Value) :
    like.Alike (call first callee arguments) (call second callee arguments) := by
  cases callee with
  | function called => exact Call.alike_function (parts.function _ _ _ _)
  | builtin builtin => exact Builtin.alike_call parts builtin arguments
  | _ => exact fail rfl

theorem alike_logic (op : LogicOp) (left right : Expr) :
    like.Alike (logic first op left right) (logic second op left right) := by
  refine like.bind (parts.expression left) fun value => ?_
  rw [parts.rounds]
  refine like.bind (Run.alike_truthy first.rounds value) fun truth => ?_
  split
  · exact like.pure _
  · exact like.pure _
  · exact parts.expression right

theorem alike_evaluate (written : Expr) :
    like.Alike (evaluate first written) (evaluate second written) := by
  unfold evaluate
  rw [parts.rounds]
  split
  · exact like.pure _
  · exact like.pure _
  · exact like.pure _
  · exact like.pure _
  · exact like.pure _
  · exact alike_lookUp _
  · exact Builtin.alike_environmentValue _
  · exact like.bind (like.mapM _ parts.expression) fun _ => like.pure _
  · exact like.bind (parts.expression _) fun _ => like.ofHost _
  · refine like.bind (parts.expression _) fun value => ?_
    exact like.bind (Run.alike_truthy first.rounds value) fun _ => like.pure _
  · refine like.bind (parts.expression _) fun _ => ?_
    exact like.bind (parts.expression _) fun _ => like.ofHost _
  · exact alike_logic parts _ _ _
  · refine like.bind (parts.expression _) fun receiver => ?_
    refine like.bind (like.mapM _ parts.expression) fun values => ?_
    exact alike_method first.rounds receiver _ values
  · refine like.bind (parts.expression _) fun callee => ?_
    exact like.bind (like.mapM _ parts.expression) fun values => alike_call parts callee values
  · refine like.bind (parts.expression _) fun _ => ?_
    exact like.bind (parts.expression _) fun _ => like.ofHost _
  · refine like.bind (parts.expression _) fun base => ?_
    split
    · exact Handle.alike_property first.rounds _ _
    · exact fail rfl
  · exact CommandRun.alike_value parts _ _

end ExpressionRun

/-! ### Statements -/

namespace StatementRun

theorem alike_assignItem (name : String) (position : Expr) (value : Value) :
    like.Alike (assignItem first name position value)
      (assignItem second name position value) := by
  refine like.bind (parts.expression position) fun index => like.bind like.get fun shell => ?_
  split
  · exact like.bind (like.ofHost _) fun _ => alike_setVariable name _
  · exact fail rfl
  · exact fail rfl

theorem alike_assign (target : Target) (value : Value) :
    like.Alike (assign first target value) (assign second target value) := by
  unfold assign
  rw [parts.rounds]
  split
  · exact alike_setVariable _ value
  · next name =>
    have sets (text : Option String) :
        like.Accepts (Action.modifySession (·.setVariable name text) : Run Unit) :=
      Builtin.alike_modifySession _
    split
    · exact like.bind (like.pure none) sets
    · exact like.bind (like.map _ (Run.alike_plainText first.rounds _)) sets
  · exact alike_assignItem parts _ _ value
  · exact fail rfl

theorem alike_repeatWhile (condition : Expr) (body : List Statement) :
    like.Alike (repeatWhile first condition body) (repeatWhile second condition body) := by
  refine like.bind (parts.expression condition) fun value => ?_
  rw [parts.rounds]
  refine like.bind (Run.alike_truthy first.rounds value) fun truth => ?_
  split
  · refine like.bind (parts.round body) fun goesOn => ?_
    split
    · exact parts.repeatWhile condition body
    · exact like.pure ()
  · exact like.pure ()

theorem alike_forEach (name : String) (body : List Statement) (items : List Value) :
    like.Alike (forEach first name body items) (forEach second name body items) := by
  induction items with
  | nil => exact like.pure ()
  | cons item rest ih =>
    refine like.bind (alike_setVariable name item) fun _ => ?_
    refine like.bind (parts.round body) fun goesOn => ?_
    split
    · exact ih
    · exact like.pure ()

theorem alike_alternatives {written : Alternatives}
    (fits : like.Fits (Straying.alternatives written)) :
    like.Alike (alternatives first written) (alternatives second written) := by
  fun_induction alternatives first written with
  | case1 => exact like.pure ()
  | case2 body => exact parts.block fits
  | case3 condition body rest ih =>
    refine like.bind (parts.expression condition) fun value => ?_
    rw [parts.rounds]
    refine like.bind (Run.alike_truthy first.rounds value) fun truth => ?_
    split
    · exact parts.block fits.left
    · exact ih fits.right

theorem alike_simple (written : SimpleStatement) :
    like.Alike (simple first written) (simple second written) := by
  cases written with
  | expression expression => exact parts.expression expression
  | assign target expression =>
    refine like.bind (parts.expression expression) fun value => ?_
    exact like.bind (alike_assign parts target value) fun _ => like.pure _

theorem alike_statement {written : Statement} (fits : like.Fits (Straying.statement written)) :
    like.Alike (statement first written) (statement second written) := by
  cases written with
  | simple written => exact like.bind (alike_simple parts written) fun _ => like.pure _
  | undecided readings =>
    refine like.bind like.get fun shell => like.ofParse_bind fun decided ok => ?_
    refine parts.block (.of_decideUnit ok ?_)
    rw [Straying.block_single]
    exact fits
  | conditional branches => exact alike_alternatives parts fits
  | whileLoop condition body => exact parts.repeatWhile condition body
  | forLoop name expression body =>
    refine like.bind (parts.expression expression) fun value => ?_
    rw [parts.rounds]
    refine like.bind (Run.alike_items first.rounds value) fun items => ?_
    exact alike_forEach parts name body items
  | define place name parameters body =>
    exact like.modify fun _ _ => .modify fun shell => AllowsCode.assignment shell _ _
  | returnValue value =>
    cases value with
    | none => exact fail rfl
    | some expression => exact like.bind (parts.expression expression) fun _ => fail rfl
  | breakLoop | continueLoop => exact like.throw (fits rfl _)
  | pass => exact like.pure ()

variable {body : List Statement}

theorem alike_block (fits : like.Fits (Straying.block body)) :
    like.Alike (block first body) (block second body) := by
  induction body with
  | nil => exact like.pure ()
  | cons written rest ih =>
    refine like.bind (alike_statement parts fits.left) fun _ => ?_
    exact like.bind like.checkSignals fun _ => ih fits.right

theorem alike_unitValue (last : Value) (fits : like.Fits (Straying.block body)) :
    like.Alike (unitValue first last body) (unitValue second last body) := by
  induction body generalizing last with
  | nil => exact like.pure last
  | cons written rest ih =>
    have goesOn (value : Value) : like.Alike (do Run.checkSignals; unitValue first value rest)
        (do Run.checkSignals; unitValue second value rest) :=
      like.bind like.checkSignals fun _ => ih value fits.right
    unfold unitValue
    split
    · exact like.bind (parts.expression _) goesOn
    · refine like.bind (alike_statement parts fits.left) fun _ => ?_
      exact like.bind (like.pure _) goesOn

theorem alike_source {text : String}
    (fits : ∀ unit, parseUnit text = .ok unit → like.Fits (Straying.block unit)) :
    like.Alike (source first text) (source second text) := by
  refine like.ofParse_bind fun unit read => like.bind like.get fun shell => ?_
  refine like.ofParse_bind fun decided ok => like.bind like.get fun _ => ?_
  refine like.bind (like.modify fun _ _ => .modify fun _ => ?_) fun _ => ?_
  · exact AllowsCode.surroundings _ _ _ _ _ _
  · exact like.inUnit _ (alike_unitValue parts .none (.of_decideUnit ok (fits unit read)))

end StatementRun

end HybridShell
