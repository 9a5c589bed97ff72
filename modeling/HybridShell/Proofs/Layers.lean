import HybridShell.Proofs.Constructs

/-!
# Layers of interpreters

Whatever the parts of a construct keep, the construct keeps, for every relation
that allows what code does by itself; and where the answers for the parts are
the same, the answers for the construct are.  The answers matter only at the
shells that the construct comes to: those of the evaluation that is going on,
those at the start of a call, and those at the start of a file.
-/

namespace HybridShell

/-- The shells that an evaluation comes to: its own, and those where calls and files start. -/
structure Places (relation : Shell → Shell → Prop) where
  here : Region relation
  -- Where a call starts need not be a region: the call itself may change the limit.
  calls : Shell → Prop
  files : Shell → Prop
  call {shell : Shell} (name : String) (locals : Dictionary Value) (holds : here.Holds shell)
    (room : shell.frames.length < shell.session.settings.maxRecursion) :
    calls { shell with frames := ⟨name, locals⟩ :: shell.frames }
  file {shell : Shell} (holds : here.Holds shell) : files { shell with frames := [] }

def Places.everywhere (relation : Shell → Shell → Prop) : Places relation where
  here := .everywhere
  calls _ := True
  files _ := True
  call _ _ _ _ := trivial
  file _ := trivial

variable {α : Type} {relation : Shell → Shell → Prop} [AllowsCode relation]
  {places : Places relation} {region : Region relation}

/-! ### Calls -/

namespace Run

theorem inFrame_run (body : Run α) (name : String) (locals : Dictionary Value) (shell : Shell) :
    (inFrame name locals body).run shell =
      if shell.session.settings.maxRecursion ≤ shell.frames.length then
        some (.error .recursion, shell)
      else
        (body.andFinally (modify fun after => { after with frames := after.frames.tail })).run
          { shell with frames := ⟨name, locals⟩ :: shell.frames } := by
  change (if shell.session.settings.maxRecursion ≤ shell.frames.length then _ else _ : Run α)
    shell = _
  split <;> rfl

theorem agree_inFrame {first second : Run α} (name : String) (locals : Dictionary Value)
    (agree : AgreeFrom relation places.calls first second) :
    Agree places.here (inFrame name locals first) (inFrame name locals second) where
  keeps := AllowsCode.inFrame name locals agree.keeps
  same {shell} holds := by
    rw [inFrame_run, inFrame_run]
    split
    · rfl
    · next room =>
      have same := agree.same (places.call name locals holds (Nat.lt_of_not_le room))
      exact congrArg (Option.bind · _) same

theorem agree_outsideCalls {first second : Run α}
    (agree : AgreeFrom relation places.files first second) :
    Agree places.here (outsideCalls first) (outsideCalls second) where
  keeps := AllowsCode.outsideCalls agree.keeps
  same holds := congrArg (Option.bind · _) (agree.same (places.file holds))

end Run

def HostCode.isFile : HostCode → Bool
  | fileText _ => true
  | _ => false

/-- Two interpreters give the same answers for the parts of a construct, where it comes to them. -/
structure Interpreter.Agree (places : Places relation) (first second : Interpreter) : Prop where
  rounds : second.rounds = first.rounds
  expression (written : Expr) :
    Run.Agree places.here (first.expression written) (second.expression written)
  captured (written : Chain) :
    Run.Agree places.here (first.captured written) (second.captured written)
  block (body : List Statement) : Run.Agree places.here (first.block body) (second.block body)
  repeatWhile (condition : Expr) (body : List Statement) :
    Run.Agree places.here (first.repeatWhile condition body) (second.repeatWhile condition body)
  function (unit : Nat) (body : List Statement) :
    Run.AgreeFrom relation places.calls (first.host (.function unit body))
      (second.host (.function unit body))
  aliasText (text : String) :
    Run.AgreeFrom relation places.calls (first.host (.aliasText text))
      (second.host (.aliasText text))
  fileText (text : String) :
    Run.AgreeFrom relation places.files (first.host (.fileText text))
      (second.host (.fileText text))

variable {first second : Interpreter}

theorem Call.agree_inUnit {body other : Run α} (unit : Nat) (agree : Run.Agree region body other) :
    Run.Agree region (inUnit unit body) (inUnit unit other) := by
  refine .bind (.refl .get) fun shell => ?_
  refine .bind (.refl (.modify fun _ => AllowsCode.surroundings _ _ _ _ _ _)) fun _ => ?_
  exact .andFinally agree (.modify fun _ => AllowsCode.surroundings _ _ _ _ _ _)

/-- Giving the same answers on a region, as a likeness that allows every early end. -/
def Run.agreement (region : Region relation) : Run.Likeness where
  Alike := Run.Agree region
  Allows _ := True
  allows _ := trivial
  pure _ := .refl (.pure _)
  throw _ := .refl (.throw _)
  exhausted := .refl .exhausted
  lift ordinary := .refl (.lift (ordinary relation))
  ofProcess ordinary := .refl (.ofProcess (ordinary relation))
  checkSignals := .refl Run.keeps_checkSignals
  bind agree goesOn := .bind agree goesOn
  attempt agree goesOn :=
    .bind (Action.Agree.bind agree fun _ => .refl (.pure _)) fun found =>
      goesOn found fun _ _ => trivial
  inUnit unit agree := Call.agree_inUnit unit agree

namespace Call

theorem agree_bodyValue {body other : Run Unit} (agree : Run.Agree region body other) :
    Run.Agree region (bodyValue body) (bodyValue other) := by
  refine Action.Agree.bind agree fun found => .refl ?_
  split <;> exact .pure _

theorem agree_function (agree : first.Agree places second) (called : Function)
    (arguments : List Value) :
    Run.Agree places.here (function first called arguments) (function second called arguments) := by
  have runs : (Run.agreement places.here).Alike _ _ :=
    Run.agree_inFrame called.name (.ofList (called.parameters.zip arguments))
      (agree.function called.unit called.body)
  exact alike_function runs

theorem agree_sourceAlias (agree : first.Agree places second) (text : String)
    (arguments : List String) :
    Run.Agree places.here (sourceAlias first text arguments)
      (sourceAlias second text arguments) := by
  refine Run.agree_inFrame _ _ (.bind (agree.aliasText text) fun _ => ?_)
  exact .bind .get fun _ => .pure _

theorem agree_nestedValue (agree : first.Agree places second) (code : NestedAlias)
    (arguments : List String) :
    Run.Agree places.here (nestedValue first code arguments)
      (nestedValue second code arguments) := by
  cases code with
  | source text => exact agree_sourceAlias agree text arguments
  | function called => exact agree_function agree called _

theorem agree_withStreams {body other : Run α} (streams : HostStreams)
    (agree : Run.Agree region body other) :
    Run.Agree region (withStreams streams body) (withStreams streams other) := by
  refine .bind (.refl .get) fun shell => ?_
  refine .bind (.refl (.modify fun _ => AllowsCode.surroundings _ _ _ _ _ _)) fun _ => ?_
  exact .andFinally agree (.modify fun _ => AllowsCode.surroundings _ _ _ _ _ _)

theorem keeps_nestedStatus {relation : Shell → Shell → Prop} [AllowsPipelines relation]
    (rounds : Nat) (name : String) (found : Except EvalError Value) :
    Action.Keeps relation (nestedStatus rounds name found) := by
  unfold nestedStatus
  split
  · refine .bind (Run.keeps_exitStatus rounds _) fun status => ?_
    split <;> exact .pure _
  · exact .pure _
  · exact .bind (Action.keeps_modifySession _) fun _ => .pure _
  · exact .bind (Action.keeps_complain _) fun _ => .pure _

theorem agree_nested (agree : first.Agree places second) (code : NestedAlias)
    (arguments : List String) (streams : HostStreams) :
    Action.Agree places.here (nested first code arguments streams)
      (nested second code arguments streams) := by
  unfold nested
  rw [agree.rounds]
  refine .bind (agree_withStreams streams (agree_nestedValue agree code arguments)) fun found => ?_
  exact .refl (keeps_nestedStatus first.rounds _ found)

end Call

/-! ### Constructs -/

theorem CommandRun.agree_runner (agree : first.Agree places second) :
    (runner first).Agree places.here (runner second) where
  run := Call.agree_nested agree
  callStack := .refl (.bind .get fun _ => .pure _)

theorem StatementRun.agree_round (agree : first.Agree places second) (body : List Statement) :
    Run.Agree places.here (round first body) (round second body) := by
  refine Action.Agree.bind (agree.block body) fun found => .refl ?_
  split <;> exact .pure _

theorem Interpreter.Agree.alike (agree : first.Agree places second) :
    first.Alike (Run.agreement places.here) second where
  rounds := agree.rounds
  expression := agree.expression
  captured := agree.captured
  block _ := agree.block _
  round := StatementRun.agree_round agree
  repeatWhile := agree.repeatWhile
  function name locals unit body := Run.agree_inFrame name locals (agree.function unit body)
  file text := Run.agree_outsideCalls (agree.fileText text)
  assemble settings host specs :=
    .ofProcess (Pipeline.agree_assemble (CommandRun.agree_runner agree) _ settings host specs)

namespace StatementRun

theorem agree_block (agree : first.Agree places second) (body : List Statement) :
    Run.Agree places.here (block first body) (block second body) :=
  alike_block agree.alike fun _ _ => trivial

theorem agree_source (agree : first.Agree places second) (text : String) :
    Run.Agree places.here (source first text) (source second text) :=
  alike_source agree.alike fun _ _ _ _ => trivial

theorem agree_host (agree : first.Agree places second) (code : HostCode) :
    Run.Agree places.here (host first code) (host second code) := by
  cases code with
  | function unit body =>
    exact Call.agree_inUnit unit (Call.agree_bodyValue (agree_block agree body))
  | aliasText text => exact agree_source agree text
  | fileText text => exact agree_source agree text

end StatementRun

/-! ### Interpreters of any depth -/

namespace Interpreter

/-- The interpreter that leaves the parts of constructs to another one. -/
def above (rounds : Nat) (inner : Interpreter) : Interpreter where
  rounds
  expression := ExpressionRun.evaluate inner
  captured := CommandRun.captured inner
  block := StatementRun.block inner
  repeatWhile := StatementRun.repeatWhile inner
  source := StatementRun.source inner
  host := StatementRun.host inner

/-- Two interpreters give the same answers on a region. -/
structure AgreeOn (region : Region relation) (first second : Interpreter) : Prop where
  rounds : second.rounds = first.rounds
  expression (written : Expr) :
    Run.Agree region (first.expression written) (second.expression written)
  captured (written : Chain) : Run.Agree region (first.captured written) (second.captured written)
  block (body : List Statement) : Run.Agree region (first.block body) (second.block body)
  repeatWhile (condition : Expr) (body : List Statement) :
    Run.Agree region (first.repeatWhile condition body) (second.repeatWhile condition body)
  source (text : String) : Run.Agree region (first.source text) (second.source text)
  host (code : HostCode) : Run.Agree region (first.host code) (second.host code)

/-- Where the answers for parts are the same, the answers for constructs are. -/
theorem agreeOn_above (rounds : Nat) (agree : first.Agree places second) :
    (above rounds first).AgreeOn places.here (above rounds second) where
  rounds := rfl
  expression := ExpressionRun.alike_evaluate agree.alike
  captured := CommandRun.alike_captured agree.alike
  block := StatementRun.agree_block agree
  repeatWhile := StatementRun.alike_repeatWhile agree.alike
  source := StatementRun.agree_source agree
  host := StatementRun.agree_host agree

omit [AllowsCode relation] in
theorem agreeOn_silent : silent.AgreeOn region silent where
  rounds := rfl
  expression _ := .refl .exhausted
  captured _ := .refl .exhausted
  block _ := .refl .exhausted
  repeatWhile _ _ := .refl .exhausted
  source _ := .refl .exhausted
  host _ := .refl .exhausted

omit [AllowsCode relation] in
/-- Evaluations of its own that code starts need to agree only where they start. -/
theorem AgreeOn.agree (same : first.AgreeOn places.here second) {host : HostCode → Run Value}
    (calls : ∀ code, code.isFile = false →
      Run.AgreeFrom relation places.calls (first.host code) (host code))
    (files : ∀ code, code.isFile = true →
      Run.AgreeFrom relation places.files (first.host code) (host code)) :
    first.Agree places { second with host } where
  rounds := same.rounds
  expression := same.expression
  captured := same.captured
  block := same.block
  repeatWhile := same.repeatWhile
  function _ _ := calls _ rfl
  aliasText _ := calls _ rfl
  fileText _ := files _ rfl

variable (relation) in
/-- However deep an interpreter goes, it keeps what code of the program may do by itself. -/
theorem agree_ofDepth (rounds depth : Nat) :
    (ofDepth rounds depth).Agree (.everywhere relation) (ofDepth rounds depth) := by
  -- With all shells as places, agreement of code at its start is agreement anywhere.
  have hosts {inner : Interpreter} (same : inner.AgreeOn (.everywhere : Region relation) inner) :
      inner.Agree (.everywhere relation) inner := by
    have keeps (code : HostCode) :
        Run.AgreeFrom relation (fun _ => True) (inner.host code) (inner.host code) :=
      ⟨(same.host code).keeps, fun _ => rfl⟩
    exact same.agree (fun code _ => keeps code) fun code _ => keeps code
  induction depth with
  | zero => exact hosts agreeOn_silent
  | succ depth ih =>
    exact hosts (agreeOn_above rounds ih)

end Interpreter

end HybridShell
