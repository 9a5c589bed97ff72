import HybridShell.Proofs.PipelineOutcomes

/-!
# Failures of chains

A chain runs with failures raised or with failures reported.  As long as every
pipeline can be started, both runs come to the same pipelines, and the failure
is raised only when the whole chain has run.  A pipeline that cannot be started
is different: its failure is raised at once, and the rest of the chain is left
out, whatever the operators around it say.
-/

namespace HybridShell

/-- A pipeline as a chain asks for it. -/
structure PipelineRequest where
  commands : List Command
  background : Bool
  negated : Bool

/-- A pipeline that a chain came to. -/
structure Attempt where
  request : PipelineRequest
  outcome : PipelineOutcome
  /-- Whether failures were raised when it had come out. -/
  raising : Bool

def Attempt.event (attempt : Attempt) : PipelineRequest × PipelineOutcome :=
  (attempt.request, attempt.outcome)

/-- Whenever two runs make the same attempt in the same place, it comes out the same. -/
def Attempt.SameOutcomes (first second : List Attempt) : Prop :=
  ∀ (index : Nat) (attempt other : Attempt), first[index]? = some attempt →
    second[index]? = some other → attempt.request = other.request →
    attempt.outcome = other.outcome

namespace Attempt.SameOutcomes

variable {first second later others : List Attempt}

theorem left (same : SameOutcomes (first ++ later) (second ++ others)) :
    SameOutcomes first second := by
  intro index attempt other found foundToo
  refine same index attempt other ?_ ?_ <;> grind

theorem right (same : SameOutcomes (first ++ later) (second ++ others))
    (events : first.map event = second.map event) : SameOutcomes later others := by
  -- Equal events are equally many, so the places of the later attempts are shifted alike.
  have length : first.length = second.length := by
    rw [← List.length_map (f := event), events, List.length_map]
  intro index attempt other found foundToo
  refine same (first.length + index) attempt other ?_ ?_ <;> grind

end Attempt.SameOutcomes

namespace Chain

/-- Run a right operand only if the code of the left one asks for it. -/
def join (goesOn : Int → Prop) [DecidablePred goesOn] (left right : Run Report) : Run Report := do
  let first ← left
  if goesOn first.code then return first.after (← right)
  else return first

theorem join_eq_some {goesOn : Int → Prop} [DecidablePred goesOn] {left right : Run Report}
    {before after : Shell} {result : Except EvalError Report}
    (answer : join goesOn left right before = some (result, after)) :
    (∃ error, left before = some (.error error, after) ∧ result = .error error) ∨
    (∃ first, left before = some (.ok first, after) ∧ ¬ goesOn first.code ∧ result = .ok first) ∨
    ∃ first middle found, left before = some (.ok first, middle) ∧ goesOn first.code ∧
      right middle = some (found, after) ∧ result = found.map first.after := by
  obtain ⟨error, fails, rfl⟩ | ⟨first, middle, runs, answer⟩ := Run.bind_eq_some_iff.mp answer
  · exact .inl ⟨error, fails, rfl⟩
  · split at answer
    · next going =>
      refine .inr (.inr ⟨first, middle, ?_⟩)
      obtain ⟨error, fails, rfl⟩ | ⟨second, last, runsToo, same⟩ :=
        Run.bind_eq_some_iff.mp answer
      · exact ⟨.error error, runs, going, fails, rfl⟩
      · cases same
        exact ⟨.ok second, runs, going, runsToo, rfl⟩
    · next stopping =>
      cases answer
      exact .inr (.inl ⟨first, runs, stopping, rfl⟩)

def CodeFrom : Chain → Int → Int → Prop
  | pipeline _ _, code, last => code = last
  | and left right, code, last => left.CodeFrom code last ∨ right.CodeFrom code last
  | or left right, code, last => left.CodeFrom code last ∨ right.CodeFrom code last
  | not operand, code, last =>
    ∃ inner, operand.CodeFrom inner last ∧ code = if inner = 0 then 1 else 0

def hasNegation : Chain → Bool
  | pipeline _ _ => false
  | and left right => left.hasNegation || right.hasNegation
  | or left right => left.hasNegation || right.hasNegation
  | not _ => true

/-- Whether a chain inverts a status that was inverted before. -/
def negatesTwice : Chain → Bool
  | pipeline _ _ => false
  | and left right => left.negatesTwice || right.negatesTwice
  | or left right => left.negatesTwice || right.negatesTwice
  | not operand => operand.hasNegation

theorem CodeFrom.eq_of_not_hasNegation : {written : Chain} → {code last : Int} →
    written.CodeFrom code last → written.hasNegation = false → code = last
  | .pipeline _ _, _, _, same, _ => same
  | .and _ _, _, _, comes, without => by
    obtain ⟨left, right⟩ := Bool.or_eq_false_iff.mp without
    exact comes.elim (·.eq_of_not_hasNegation left) (·.eq_of_not_hasNegation right)
  | .or _ _, _, _, comes, without => by
    obtain ⟨left, right⟩ := Bool.or_eq_false_iff.mp without
    exact comes.elim (·.eq_of_not_hasNegation left) (·.eq_of_not_hasNegation right)

/-- Without a second negation, a failure is not taken for another one. -/
theorem CodeFrom.cases_of_not_negatesTwice : {written : Chain} → {code last : Int} →
    written.CodeFrom code last → written.negatesTwice = false →
    code = last ∨ code = 0 ∨ last = 0
  | .pipeline _ _, _, _, same, _ => .inl same
  | .and _ _, _, _, comes, without => by
    obtain ⟨left, right⟩ := Bool.or_eq_false_iff.mp without
    exact comes.elim (·.cases_of_not_negatesTwice left) (·.cases_of_not_negatesTwice right)
  | .or _ _, _, _, comes, without => by
    obtain ⟨left, right⟩ := Bool.or_eq_false_iff.mp without
    exact comes.elim (·.cases_of_not_negatesTwice left) (·.cases_of_not_negatesTwice right)
  | .not _, _, _, comes, without => by
    obtain ⟨inner, comes, rfl⟩ := comes
    obtain rfl := comes.eq_of_not_hasNegation without
    split
    · next zero => exact .inr (.inr zero)
    · exact .inr (.inl rfl)

end Chain

/-! ### The attempts of a run -/

namespace CommandRun

/-- The attempts of a right operand, if the left one lets the chain go on. -/
def further (goesOn : Int → Prop) [DecidablePred goesOn]
    (first : Option (Except EvalError Chain.Report × Shell)) (right : Shell → List Attempt) :
    List Attempt :=
  match first with
  | some (.ok report, shell) => if goesOn report.code then right shell else []
  | _ => []

/-- The pipelines that a chain comes to, in order. -/
def attempts (inner : Interpreter) (capture : Capture) (negated : Bool) :
    Chain → Shell → List Attempt
  | .pipeline commands background, shell =>
    ((outcome? inner capture commands background negated shell).map fun found =>
      ⟨⟨commands, background, negated⟩, found.1, found.2.raisesFailures⟩).toList
  | .and left right, shell =>
    attempts inner capture negated left shell ++
      further (· = 0) (left.runWith (pipeline inner capture) negated shell)
        (attempts inner capture negated right)
  | .or left right, shell =>
    attempts inner capture negated left shell ++
      further (· ≠ 0) (left.runWith (pipeline inner capture) negated shell)
        (attempts inner capture negated right)
  | .not operand, shell => attempts inner capture (!negated) operand shell

/-- Every pipeline of some numbers is there, and never raises its failure itself. -/
def AreQuiet (shell : Shell) (numbers : List Nat) : Prop :=
  ∀ number ∈ numbers, ∃ pipeline, shell.pipeline? number = some pipeline ∧ pipeline.raises = false

theorem AreQuiet.stay {before after : Shell} {numbers : List Nat} (quiet : AreQuiet before numbers)
    (stay : before.PipelinesStay after) : AreQuiet after numbers := by
  intro number member
  obtain ⟨pipeline, found, silent⟩ := quiet number member
  obtain ⟨later, found, same⟩ := stay number pipeline found
  exact ⟨later, found, same.trans silent⟩

/-- The last attempt ran, and the shell still has its pipeline. -/
structure LastRan (attempts : List Attempt) (report : Chain.Report) (after : Shell) (code : Int)
    (pipeline : Pipeline) : Prop where
  attempt : ∃ attempt, attempts.getLast? = some attempt ∧
    attempt.outcome = .ran code pipeline.failure? ∧ attempt.raising = after.raisesFailures
  started : report.started.getLast?.bind after.pipeline? = some pipeline
  ranWith : pipeline.RanWith code

/-- A run with failures raised, beside one with failures reported. -/
inductive Comparison : List Attempt → List Attempt → Except EvalError Chain.Report →
    Except EvalError Chain.Report → Prop
  /-- Every pipeline could be started. -/
  | together (same : raised.map Attempt.event = reported.map Attempt.event)
      (started : ∀ attempt ∈ reported, attempt.outcome.isNotStarted = false)
      (code : report.code = other.code) : Comparison raised reported (.ok report) (.ok other)
  /-- Both end early, for the same reason. -/
  | endedEarly (same : raised.map Attempt.event = reported.map Attempt.event) :
      Comparison raised reported (.error error) (.error error)
  /-- The first of them ends at a pipeline that cannot be started. -/
  | raisedEarly (split : reported = earlier ++ attempt :: later)
      (same : raised.map Attempt.event = (earlier ++ [attempt]).map Attempt.event)
      (started : ∀ attempt ∈ earlier, attempt.outcome.isNotStarted = false)
      (failed : attempt.outcome = .notStarted error) :
      Comparison raised reported (.error (.process error)) result

/-- What is known of a part of a chain and of the attempts that it makes. -/
structure Behaves (codes : Int → Int → Prop) (run : Run Chain.Report)
    (attempts : Shell → List Attempt) : Prop where
  keeps : Run.Keeps Shell.PipelinesStay run
  quiet {before after : Shell} {report : Chain.Report}
    (answer : run before = some (.ok report, after)) : AreQuiet after report.started
  last {before after : Shell} {report : Chain.Report}
    (answer : run before = some (.ok report, after))
    (raising : ∀ attempt ∈ attempts before, attempt.raising = true) :
    ∃ code pipeline, LastRan (attempts before) report after code pipeline ∧ codes report.code code
  compares {first second after last : Shell} {result other : Except EvalError Chain.Report}
    (answer : run first = some (result, after)) (second_answer : run second = some (other, last))
    (raising : ∀ attempt ∈ attempts first, attempt.raising = true)
    (reporting : ∀ attempt ∈ attempts second, attempt.raising = false)
    (same : Attempt.SameOutcomes (attempts first) (attempts second)) :
    Comparison (attempts first) (attempts second) result other

variable {inner : Interpreter} {capture : Capture}

theorem behaves_pipeline (agree : inner.Agree (.everywhere Shell.PipelinesStay) inner)
    (notObject : capture ≠ .object) (negated : Bool) (commands : List Command)
    (background : Bool) :
    Behaves (· = ·) (pipeline inner capture commands background negated)
      (attempts inner capture negated (.pipeline commands background)) where
  keeps := Run.Agree.keeps (alike_pipeline agree.alike capture commands background negated)
  quiet {before after report} answer := by
    obtain ⟨outcome, middle, _, concludes, _⟩ := concludes_pipeline notObject answer
    cases concludes with
    | reported => exact fun _ absent => absurd absent List.not_mem_nil
    | ran found ranWith =>
      intro number member
      rw [List.mem_singleton.mp member]
      exact ⟨_, found, ranWith.quiet⟩
  last {before after report} answer raising := by
    obtain ⟨outcome, middle, comes, concludes, settings⟩ := concludes_pipeline notObject answer
    unfold attempts at raising ⊢
    rw [comes] at raising ⊢
    cases concludes with
    | reported notRaising => simp_all
    | ran found ranWith =>
      exact ⟨_, _, ⟨⟨_, rfl, rfl, settings.symm⟩, found, ranWith⟩, rfl⟩
  compares {first second after last result other} answer second_answer raising reporting same := by
    obtain ⟨outcome, middle, comes, concludes, _⟩ := concludes_pipeline notObject answer
    obtain ⟨outcome', middle', comes', concludes', _⟩ :=
      concludes_pipeline notObject second_answer
    unfold attempts at raising reporting same ⊢
    rw [comes] at raising same ⊢
    rw [comes'] at reporting same ⊢
    -- The outcome is the same; only what is done about a failure to start is not.
    obtain rfl : outcome = outcome' := same 0 _ _ rfl rfl rfl
    have raises : middle.raisesFailures = true := raising _ List.mem_cons_self
    rw [raises] at concludes
    cases concludes with
    | endedEarly =>
      cases concludes'
      exact .endedEarly rfl
    | raised =>
      refine .raisedEarly (show [_] = [] ++ _ :: [] from rfl) rfl ?_ rfl
      exact fun _ absent => absurd absent List.not_mem_nil
    | reported notRaising => cases notRaising
    | ran found ranWith =>
      obtain ⟨number, rfl⟩ := concludes'.of_ran
      refine .together rfl (fun attempt member => ?_) rfl
      rw [List.mem_singleton.mp member]
      rfl

section Joined

variable {goesOn : Int → Prop} [DecidablePred goesOn] {right : Shell → List Attempt}
  {report : Chain.Report} {shell : Shell}

theorem further_of_error (error : EvalError) :
    further goesOn (some (.error error, shell)) right = [] := rfl

theorem further_of_stop (stops : ¬ goesOn report.code) :
    further goesOn (some (.ok report, shell)) right = [] := if_neg stops

theorem further_of_going (going : goesOn report.code) :
    further goesOn (some (.ok report, shell)) right = right shell := if_pos going

end Joined

variable {code : Int} {started : List Nat} {result : Except EvalError Value}

theorem LastRan.append {earlier attempts : List Attempt} {first second : Chain.Report}
    {after : Shell} {pipeline : Pipeline} (ran : LastRan attempts second after code pipeline) :
    LastRan (earlier ++ attempts) (first.after second) after code pipeline where
  attempt := by
    obtain ⟨attempt, isLast, outcome, raising⟩ := ran.attempt
    simp_all
  started := by
    obtain ⟨number, isLast, found⟩ := Option.bind_eq_some_iff.mp ran.started
    change (first.started ++ second.started).getLast?.bind after.pipeline? = some pipeline
    simp_all
  ranWith := ran.ranWith

namespace Comparison

variable {raised reported earlier others : List Attempt}
  {result other : Except EvalError Chain.Report} {first second : Chain.Report}

theorem prepend (same : earlier.map Attempt.event = others.map Attempt.event)
    (started : ∀ attempt ∈ others, attempt.outcome.isNotStarted = false)
    (comparison : Comparison raised reported result other) :
    Comparison (earlier ++ raised) (others ++ reported) (result.map first.after)
      (other.map second.after) := by
  cases comparison with
  | together sameToo startedToo code =>
    refine .together ?_ (List.forall_mem_append.mpr ⟨started, startedToo⟩) code
    rw [List.map_append, List.map_append, same, sameToo]
  | endedEarly sameToo =>
    refine .endedEarly ?_
    rw [List.map_append, List.map_append, same, sameToo]
  | raisedEarly split sameToo startedToo failed =>
    refine .raisedEarly (by rw [split, ← List.append_assoc]) ?_
      (List.forall_mem_append.mpr ⟨started, startedToo⟩) failed
    rw [List.map_append, same, sameToo, ← List.map_append, List.append_assoc]

/-- The run that ended early does not see what the other one goes on with. -/
theorem extend {error : EvalError} {later : List Attempt} {report : Chain.Report}
    (comparison : Comparison raised reported (.error error) (.ok report)) :
    Comparison raised (reported ++ later) (.error error) result := by
  cases comparison with
  | raisedEarly split same started failed =>
    have split := congrArg (· ++ later) split
    rw [List.append_assoc, List.cons_append] at split
    exact .raisedEarly split same started failed

end Comparison

theorem behaves_join (goesOn : Int → Prop) [DecidablePred goesOn] {left right : Run Chain.Report}
    {leftAttempts rightAttempts : Shell → List Attempt} {leftCodes rightCodes : Int → Int → Prop}
    (leftBehaves : Behaves leftCodes left leftAttempts)
    (rightBehaves : Behaves rightCodes right rightAttempts) :
    Behaves (fun code last => leftCodes code last ∨ rightCodes code last)
      (Chain.join goesOn left right)
      (fun shell => leftAttempts shell ++ further goesOn (left shell) rightAttempts) where
  keeps := by
    refine .bind leftBehaves.keeps fun first => ?_
    split
    · exact .bind rightBehaves.keeps fun _ => .pure _
    · exact .pure _
  quiet {before after report} answer := by
    obtain ⟨error, _, same⟩ | ⟨first, runs, _, same⟩ |
      ⟨first, middle, found, runs, _, runsToo, same⟩ := Chain.join_eq_some answer
    · cases same
    · cases same
      exact leftBehaves.quiet runs
    · cases found with
      | error error => cases same
      | ok second =>
        cases same
        have stayed := (leftBehaves.quiet runs).stay (rightBehaves.keeps runsToo)
        exact List.forall_mem_append.mpr ⟨stayed, rightBehaves.quiet runsToo⟩
  last {before after report} answer raising := by
    obtain ⟨error, _, same⟩ | ⟨first, runs, stops, same⟩ |
      ⟨first, middle, found, runs, going, runsToo, same⟩ := Chain.join_eq_some answer
    · cases same
    · cases same
      rw [runs, further_of_stop stops, List.append_nil] at raising ⊢
      obtain ⟨code, pipeline, ran, codes⟩ := leftBehaves.last runs raising
      exact ⟨code, pipeline, ran, .inl codes⟩
    · cases found with
      | error error => cases same
      | ok second =>
        cases same
        rw [runs, further_of_going going] at raising ⊢
        obtain ⟨code, pipeline, ran, codes⟩ := rightBehaves.last runsToo
          fun attempt member => raising attempt (List.mem_append_right _ member)
        exact ⟨code, pipeline, ran.append, .inr codes⟩
  compares {first second after last result other} answer second_answer raising reporting same := by
    have raisingLeft (attempt : Attempt) (member : attempt ∈ leftAttempts first) :=
      raising attempt (List.mem_append_left _ member)
    have reportingLeft (attempt : Attempt) (member : attempt ∈ leftAttempts second) :=
      reporting attempt (List.mem_append_left _ member)
    -- Each run fails on the left, stops after it or goes on.  The comparison of the left
    -- operands leaves the cases in which both do the same, or only the first one fails.
    obtain ⟨error, runs, rfl⟩ | ⟨report, runs, stops, rfl⟩ |
      ⟨report, middle, found, runs, going, runsToo, rfl⟩ := Chain.join_eq_some answer <;>
    obtain ⟨error', runs', rfl⟩ | ⟨report', runs', stops', rfl⟩ |
      ⟨report', middle', found', runs', going', runsToo', rfl⟩ :=
        Chain.join_eq_some second_answer <;>
    have compared := leftBehaves.compares runs runs' raisingLeft reportingLeft same.left
    · simp_all [further_of_error]
    · rw [runs, further_of_error, List.append_nil]
      exact compared.extend
    · rw [runs, further_of_error, List.append_nil]
      exact compared.extend
    · cases compared
    · rw [runs, runs', further_of_stop stops, further_of_stop stops', List.append_nil,
        List.append_nil]
      exact compared
    · cases compared with
      | together _ _ code => exact absurd (code ▸ going') stops
    · cases compared
    · cases compared with
      | together _ _ code => exact absurd (code ▸ going) stops'
    · cases compared with
      | together sameLeft startedLeft code =>
        rw [runs, further_of_going going] at raising same ⊢
        rw [runs', further_of_going going'] at reporting same ⊢
        refine (rightBehaves.compares runsToo runsToo' ?_ ?_ (same.right sameLeft)).prepend
          sameLeft startedLeft
        · exact fun attempt member => raising attempt (List.mem_append_right _ member)
        · exact fun attempt member => reporting attempt (List.mem_append_right _ member)

theorem behaves_inverted {run : Run Chain.Report} {attempts : Shell → List Attempt}
    {codes : Int → Int → Prop} (behaves : Behaves codes run attempts) :
    Behaves (fun code last => ∃ inner, codes inner last ∧ code = if inner = 0 then 1 else 0)
      (run >>= fun report => pure report.inverted) attempts where
  keeps := .bind behaves.keeps fun _ => .pure _
  quiet answer := by
    obtain ⟨error, _, same⟩ | ⟨report, middle, runs, same⟩ := Run.bind_eq_some_iff.mp answer
    · cases same
    · cases same
      have quiet := behaves.quiet runs
      exact quiet
  last answer raising := by
    obtain ⟨error, _, same⟩ | ⟨report, middle, runs, same⟩ := Run.bind_eq_some_iff.mp answer
    · cases same
    · cases same
      obtain ⟨code, pipeline, ran, codes⟩ := behaves.last runs raising
      exact ⟨code, pipeline, ⟨ran.attempt, ran.started, ran.ranWith⟩, _, codes, rfl⟩
  compares answer second_answer raising reporting same := by
    obtain ⟨error, runs, rfl⟩ | ⟨report, middle, runs, done⟩ := Run.bind_eq_some_iff.mp answer <;>
    obtain ⟨error', runs', rfl⟩ | ⟨report', middle', runs', done'⟩ :=
      Run.bind_eq_some_iff.mp second_answer <;>
    have compared := behaves.compares runs runs' raising reporting same
    · exact compared
    · cases compared with
      | raisedEarly split same started failed => exact .raisedEarly split same started failed
    · cases compared
    · cases done
      cases done'
      cases compared with
      | together same started code =>
        refine .together same started ?_
        change (if report.code = 0 then 1 else 0) = if report'.code = 0 then 1 else 0
        rw [code]

theorem behaves_runWith (agree : inner.Agree (.everywhere Shell.PipelinesStay) inner)
    (notObject : capture ≠ .object) : (written : Chain) → (negated : Bool) →
    Behaves written.CodeFrom (written.runWith (pipeline inner capture) negated)
      (attempts inner capture negated written)
  | .pipeline commands background, negated =>
    behaves_pipeline agree notObject negated commands background
  | .and left right, negated =>
    behaves_join (· = 0) (behaves_runWith agree notObject left negated)
      (behaves_runWith agree notObject right negated)
  | .or left right, negated =>
    behaves_join (· ≠ 0) (behaves_runWith agree notObject left negated)
      (behaves_runWith agree notObject right negated)
  | .not operand, negated => behaves_inverted (behaves_runWith agree notObject operand !negated)

/-! ### The boundary of a chain -/

variable {written : Chain} {before after : Shell}

def deliver (rounds : Nat) (started : List Nat) : Capture → Run Value
  | .stdout => do return .str (← outputText rounds started)
  | _ => return .none

theorem value_eq (notObject : capture ≠ .object) :
    value inner capture written =
      chain inner capture written >>= fun report =>
        raiseFailure report >>= fun _ => deliver inner.rounds report.started capture := by
  cases capture with
  | object => exact absurd rfl notObject
  | uncaptured | stdout | hidden => rfl

/-- A chain only notes its last code when its pipelines have run. -/
theorem chain_eq_some {result : Except EvalError Chain.Report}
    (answer : chain inner capture written before = some (result, after)) :
    ∃ middle, written.runWith (pipeline inner capture) false before = some (result, middle) ∧
      after.pipeline? = middle.pipeline? ∧ after.raisesFailures = middle.raisesFailures := by
  obtain ⟨error, fails, rfl⟩ | ⟨report, middle, runs, same⟩ := Run.bind_eq_some_iff.mp answer
  · exact ⟨after, fails, rfl, rfl⟩
  · cases same
    exact ⟨middle, runs, rfl, rfl⟩

variable {rounds : Nat} {pipeline : Pipeline} {report : Chain.Report}

theorem output_of_quiet {number : Nat} {result : Except EvalError String}
    (found : before.pipeline? number = some pipeline) (silent : pipeline.raises = false)
    (answer : Run.ofProcess (Action.withPipeline number (Pipeline.outputOf rounds)) before =
      some (result, after)) :
    ((∃ text, result = .ok text) ∨ result = .error (.process .interrupted)) ∧
      before.PipelinesStay after := by
  obtain ⟨outcome, waits, rfl⟩ := Run.ofProcess_eq_some_iff.mp answer
  have stay : before.PipelinesStay after :=
    Action.keeps_withPipeline number (Pipeline.leavesInPlace_outputOf rounds) waits
  obtain ⟨held, waited, foundToo, asks, rfl, rfl⟩ := Action.withPipeline_eq_some_iff.mp waits
  obtain rfl : pipeline = held := Option.some.inj (found.symm.trans foundToo)
  refine ⟨?_, stay⟩
  obtain ⟨text, given⟩ | interrupted := Pipeline.outputOf_of_quiet silent asks
  · exact .inl ⟨text, by rw [given]; rfl⟩
  · exact .inr (by rw [interrupted]; rfl)

theorem outputs_of_quiet {result : Except EvalError (List String)} (quiet : AreQuiet before started)
    (answer : (started.mapM fun number =>
        Run.ofProcess (Action.withPipeline number (Pipeline.outputOf rounds))) before =
      some (result, after)) :
    (∃ texts, result = .ok texts) ∨ result = .error (.process .interrupted) := by
  -- Reading one pipeline leaves the others as quiet as they were.
  induction started generalizing before after result with
  | nil =>
    cases answer
    exact .inl ⟨_, rfl⟩
  | cons number rest ih =>
    rw [List.mapM_cons] at answer
    obtain ⟨⟨pipeline, found, silent⟩, quietRest⟩ := List.forall_mem_cons.mp quiet
    obtain ⟨error, fails, rfl⟩ | ⟨text, middle, gives, answer⟩ := Run.bind_eq_some_iff.mp answer
    · obtain ⟨⟨text, impossible⟩ | interrupted, _⟩ := output_of_quiet found silent fails
      · cases impossible
      · simp_all
    · have quietRest := AreQuiet.stay quietRest (output_of_quiet found silent gives).2
      obtain ⟨error, fails, rfl⟩ | ⟨texts, last, givesAll, same⟩ :=
        Run.bind_eq_some_iff.mp answer
      · grind
      · cases same
        exact .inl ⟨_, rfl⟩

theorem deliver_of_quiet (quiet : AreQuiet before started)
    (answer : deliver rounds started capture before = some (result, after)) :
    (∃ value, result = .ok value) ∨ result = .error (.process .interrupted) := by
  cases capture with
  | object | uncaptured | hidden =>
    cases answer
    exact .inl ⟨_, rfl⟩
  | stdout =>
    obtain ⟨error, fails, rfl⟩ | ⟨text, _, _, same⟩ := Run.bind_eq_some_iff.mp answer
    · obtain ⟨error, fails, same⟩ | ⟨_, _, _, same⟩ := Run.bind_eq_some_iff.mp fails
      · obtain ⟨_, impossible⟩ | interrupted := outputs_of_quiet quiet fails
        · cases impossible
        · simp_all
      · cases same
    · cases same
      exact .inl ⟨_, rfl⟩

theorem raiseFailure_of_zero (zero : report.code = 0) (shell : Shell) :
    raiseFailure report shell = some (.ok (), shell) := by
  unfold raiseFailure
  rw [Run.get_bind, zero]
  rfl

theorem raiseFailure_of_last {shell : Shell} (nonzero : report.code ≠ 0)
    (raises : shell.raisesFailures = true)
    (last : report.started.getLast?.bind shell.pipeline? = some pipeline) :
    raiseFailure report shell =
      some (.error (.process
        (pipeline.failure?.getD (.failed pipeline.executedCommand report.code))), shell) := by
  have raising : (decide (report.code ≠ 0) && shell.session.settings.raiseOnFailure) = true :=
    Bool.and_eq_true_iff.mpr ⟨decide_eq_true nonzero, raises⟩
  unfold raiseFailure
  rw [Run.get_bind, if_pos raising, last]
  rfl

/-- The status with which something ends early. -/
def raisedCode? {α : Type} : Except EvalError α → Option Int
  | .error error => some error.exitCode
  | .ok _ => none

/-- What the end of a chain raises, after pipelines that did not raise themselves. -/
theorem raisedCode?_of_last (raises : before.raisesFailures = true)
    (quiet : AreQuiet before report.started)
    (last : report.started.getLast?.bind before.pipeline? = some pipeline)
    (uninterrupted : result ≠ .error (.process .interrupted))
    (answer : (raiseFailure report >>= fun _ => deliver rounds report.started capture) before =
      some (result, after)) :
    raisedCode? result =
      if report.code = 0 then none
      else some ((pipeline.failure?.map ProcessError.exitCode).getD
        (shellExitCode report.code)) := by
  by_cases zero : report.code = 0
  · rw [if_pos zero]
    rw [Run.bind_of_ok (raiseFailure_of_zero zero before)] at answer
    obtain ⟨value, rfl⟩ | interrupted := deliver_of_quiet quiet answer
    · rfl
    · exact absurd interrupted uninterrupted
  · rw [if_neg zero]
    have fails := raiseFailure_of_last zero raises last
    obtain ⟨error, given, rfl⟩ | ⟨_, _, given, _⟩ := Run.bind_eq_some_iff.mp answer
    · rw [fails] at given
      cases given
      cases pipeline.failure? with
      | none => rfl
      | some error => rfl
    · simp_all

/-- Without a second negation, the failure that is raised has the status of the overall code. -/
theorem exitCode_of_last (codes : written.CodeFrom report.code code)
    (simple : written.negatesTwice = false) (ranWith : pipeline.RanWith code)
    (nonzero : report.code ≠ 0)
    (positive : (PipelineOutcome.ran code pipeline.failure?).SignalIsPositive) :
    (pipeline.failure?.map ProcessError.exitCode).getD (shellExitCode report.code) =
      shellExitCode report.code := by
  cases failed : pipeline.failure? with
  | none => rfl
  | some error =>
    obtain ⟨failing, exitCode⟩ := ranWith.exitCode_failure failed positive
    obtain same | zero | zero := codes.cases_of_not_negatesTwice simple
    · grind
    · exact absurd zero nonzero
    · exact absurd zero failing

theorem getLast?_of_events {first second : List Attempt} {attempt : Attempt}
    (same : first.map Attempt.event = second.map Attempt.event)
    (isLast : first.getLast? = some attempt) :
    ∃ other, second.getLast? = some other ∧ other.outcome = attempt.outcome := by
  have mapped : second.getLast?.map Attempt.event = some attempt.event := by grind
  obtain ⟨other, isLastToo, event⟩ := Option.map_eq_some_iff.mp mapped
  exact ⟨other, isLastToo, congrArg Prod.snd event⟩

end CommandRun

open CommandRun in
/--
With failures raised, a chain does what it does with failures reported, and
raises a failure at its end just when the overall code is not zero, if every
pipeline can be started; the status of the failure is that of the overall code
if no negation is inside another one.  Otherwise the run ends at the first
pipeline that cannot be started, with the failure to start it.
-/
theorem chains_raise_at_their_end_iff_started {rounds depth : Nat} {capture : Capture}
    {written : Chain} {raised reported after last : Shell} {result : Except EvalError Value}
    {report : Chain.Report} (notObject : capture ≠ .object)
    (answer : value (.ofDepth rounds depth) capture written raised = some (result, after))
    (overall : chain (.ofDepth rounds depth) capture written reported = some (.ok report, last))
    (raising : ∀ attempt ∈ attempts (.ofDepth rounds depth) capture false written raised,
      attempt.raising = true)
    (reporting : ∀ attempt ∈ attempts (.ofDepth rounds depth) capture false written reported,
      attempt.raising = false)
    (same : Attempt.SameOutcomes
      (attempts (.ofDepth rounds depth) capture false written raised)
      (attempts (.ofDepth rounds depth) capture false written reported))
    (signals : ∀ attempt ∈ attempts (.ofDepth rounds depth) capture false written reported,
      attempt.outcome.SignalIsPositive)
    (uninterrupted : result ≠ .error (.process .interrupted)) :
    ((∀ attempt ∈ attempts (.ofDepth rounds depth) capture false written reported,
        attempt.outcome.isNotStarted = false) ∧
      (attempts (.ofDepth rounds depth) capture false written raised).map Attempt.event =
        (attempts (.ofDepth rounds depth) capture false written reported).map Attempt.event ∧
      (∃ attempt code failure,
        (attempts (.ofDepth rounds depth) capture false written reported).getLast? =
          some attempt ∧
        attempt.outcome = .ran code failure ∧
        raisedCode? result =
          if report.code = 0 then none
          else some ((failure.map ProcessError.exitCode).getD (shellExitCode report.code))) ∧
      (written.negatesTwice = false →
        raisedCode? result =
          if report.code = 0 then none else some (shellExitCode report.code))) ∨
    ∃ earlier attempt later error,
      attempts (.ofDepth rounds depth) capture false written reported =
        earlier ++ attempt :: later ∧
      (∀ attempt ∈ earlier, attempt.outcome.isNotStarted = false) ∧
      attempt.outcome = .notStarted error ∧
      (attempts (.ofDepth rounds depth) capture false written raised).map Attempt.event =
        (earlier ++ [attempt]).map Attempt.event ∧
      result = .error (.process error) := by
  have behaves : Behaves written.CodeFrom
      (written.runWith (pipeline (.ofDepth rounds depth) capture) false)
      (attempts (.ofDepth rounds depth) capture false written) :=
    behaves_runWith (Interpreter.agree_ofDepth Shell.PipelinesStay rounds depth) notObject
      written false
  obtain ⟨reportedEnd, reports, _⟩ := chain_eq_some overall
  rw [value_eq notObject] at answer
  obtain ⟨error, fails, rfl⟩ | ⟨found, middle, runs, answer⟩ := Run.bind_eq_some_iff.mp answer
  -- An error inside of the chain, where the other run has none, is a failure to start.
  · obtain ⟨raisedEnd, runs, _⟩ := chain_eq_some fails
    cases behaves.compares runs reports raising reporting same with
    | raisedEarly split same started failed =>
      exact .inr ⟨_, _, _, _, split, started, failed, same, rfl⟩
  -- Otherwise the boundary looks at the last pipeline, which the shell still has.
  · obtain ⟨raisedEnd, runs, stands, settings⟩ := chain_eq_some runs
    obtain ⟨code, pipeline, ran, codes⟩ := behaves.last runs raising
    cases behaves.compares runs reports raising reporting same with
    | together events started codeSame =>
      obtain ⟨attempt, isLast, outcome, settingsToo⟩ := ran.attempt
      obtain ⟨other, isLastToo, sameOutcome⟩ := getLast?_of_events events isLast
      have outcome := sameOutcome.trans outcome
      have positive := signals other (List.mem_of_getLast? isLastToo)
      rw [outcome] at positive
      have raises : middle.raisesFailures = true := by
        rw [settings, ← settingsToo]
        exact raising attempt (List.mem_of_getLast? isLast)
      have quiet : AreQuiet middle found.started := by
        unfold AreQuiet
        rw [stands]
        exact behaves.quiet runs
      have status := raisedCode?_of_last raises quiet (stands ▸ ran.started) uninterrupted answer
      rw [codeSame] at status codes
      refine .inl ⟨started, events, ⟨other, _, _, isLastToo, outcome, status⟩, fun simple => ?_⟩
      rw [status]
      split
      · rfl
      · next nonzero => rw [exitCode_of_last codes simple ran.ranWith nonzero positive]

section Instances

open CommandRun

def PipelineOutcome.ended? : PipelineOutcome → Option (Int × Option ProcessError)
  | ran code failure => some (code, failure)
  | _ => none

theorem PipelineOutcome.eq_ran_of_ended? {outcome : PipelineOutcome}
    {ended : Int × Option ProcessError} (found : outcome.ended? = some ended) :
    outcome = ran ended.1 ended.2 := by
  cases outcome with
  | ran code failure =>
    cases found
    rfl
  | notStarted error => cases found
  | endedEarly error => cases found

/-- What a list of attempts came to, with the setting that each of them found. -/
def Attempt.settled (attempts : List Attempt) : List (Option (Int × Option ProcessError) × Bool) :=
  attempts.map fun attempt => (attempt.outcome.ended?, attempt.raising)

/-- Pipelines that ran, with the setting that each of them found. -/
def ranWith (raising : Bool) (codes : List (Int × Option ProcessError)) :
    List (Option (Int × Option ProcessError) × Bool) :=
  codes.map fun ended => (some ended, raising)

namespace Attempt

variable {first second : List Attempt} {raising raisingToo : Bool}
  {codes : List (Int × Option ProcessError)}

variable {attempt : Attempt}

theorem ran_of_settled (settles : settled first = ranWith raising codes) {index : Nat}
    (found : first[index]? = some attempt) :
    ∃ ended, codes[index]? = some ended ∧ attempt.outcome = .ran ended.1 ended.2 ∧
      attempt.raising = raising := by
  have same := congrArg (·[index]?) settles
  simp only [settled, ranWith, List.getElem?_map, found, Option.map_some] at same
  obtain ⟨ended, isThere, same⟩ := Option.map_eq_some_iff.mp same.symm
  obtain ⟨isEnded, rfl⟩ := Prod.mk.inj same
  exact ⟨ended, isThere, PipelineOutcome.eq_ran_of_ended? isEnded.symm, rfl⟩

theorem ran_of_mem (settles : settled first = ranWith raising codes) (isThere : attempt ∈ first) :
    ∃ ended ∈ codes, attempt.outcome = .ran ended.1 ended.2 ∧ attempt.raising = raising := by
  obtain ⟨index, found⟩ := List.mem_iff_getElem?.mp isThere
  obtain ⟨ended, isEnded, ran⟩ := ran_of_settled settles found
  exact ⟨ended, List.mem_of_getElem? isEnded, ran⟩

theorem sameOutcomes_of_settled (settles : settled first = ranWith raising codes)
    (settlesToo : settled second = ranWith raisingToo codes) : SameOutcomes first second := by
  intro index attempt other found foundToo _
  obtain ⟨ended, isEnded, ran, _⟩ := ran_of_settled settles found
  obtain ⟨endedToo, isEndedToo, ranToo, _⟩ := ran_of_settled settlesToo foundToo
  simp_all

end Attempt

def returning (name : String) (status : Int64) : Alias :=
  .nested (.function ⟨0, 0, name, [], [.returnValue (some (.int status))]⟩)

def shellRaising (raises : String) : Shell :=
  Shell.start (.start ⟨∅, "/"⟩ [])
    { Session.start "/" (.ofList [("DUOSH_RAISE_SUBPROC_ERROR", raises)]) false with
      aliases := .ofList [("succeeds", returning "succeeds" 0), ("fails", returning "fails" 3)] }

def commandNamed (name : String) : Chain :=
  .pipeline [⟨[[.literal name false]], []⟩] false

def mixedChain : Chain :=
  .or (.and (commandNamed "succeeds") (commandNamed "fails")) (.not (commandNamed "succeeds"))

def mixedCodes : List (Int × Option ProcessError) :=
  [(0, none), (3, some (.failed "fails" 3)), (0, none)]

theorem chains_raise_at_their_end_iff_started_mixed :
    Attempt.settled (attempts (.ofDepth 1 6) .hidden false mixedChain (shellRaising "1")) =
        ranWith true mixedCodes ∧
      Attempt.settled (attempts (.ofDepth 1 6) .hidden false mixedChain (shellRaising "0")) =
        ranWith false mixedCodes ∧
      (chain (.ofDepth 1 6) .hidden mixedChain (shellRaising "0")).map
        (fun ended => ended.1.toOption.map (·.code)) = some (some 1) ∧
      (value (.ofDepth 1 6) .hidden mixedChain (shellRaising "1")).map
        (fun ended => raisedCode? ended.1) = some (some 1) := by
  have raised : Attempt.settled
      (attempts (.ofDepth 1 6) .hidden false mixedChain (shellRaising "1")) =
        ranWith true mixedCodes := by
    decide +kernel
  have reported : Attempt.settled
      (attempts (.ofDepth 1 6) .hidden false mixedChain (shellRaising "0")) =
        ranWith false mixedCodes := by
    decide +kernel
  have codes : (chain (.ofDepth 1 6) .hidden mixedChain (shellRaising "0")).map
      (fun ended => ended.1.toOption.map (·.code)) = some (some 1) := by
    decide +kernel
  have answers : (value (.ofDepth 1 6) .hidden mixedChain (shellRaising "1")).any
      (fun ended => raisedCode? ended.1 != some 130) = true := by
    decide +kernel
  refine ⟨raised, reported, codes, ?_⟩
  obtain ⟨⟨result, after⟩, answer, uninterrupted⟩ := (Option.any_eq_true _ _).mp answers
  obtain ⟨⟨outcome, last⟩, overall, codes⟩ := Option.map_eq_some_iff.mp codes
  cases outcome with
  | error error => cases codes
  | ok report =>
    have code : report.code = 1 := Option.some.inj codes
    have positive : ∀ ended ∈ mixedCodes,
        (PipelineOutcome.ran ended.1 ended.2).SignalIsPositive := by
      simp [mixedCodes, PipelineOutcome.SignalIsPositive]
    obtain ⟨_, _, _, raises⟩ | ⟨earlier, attempt, later, error, split, _, failed, _⟩ :=
      chains_raise_at_their_end_iff_started (by decide) answer overall
        (fun attempt isThere => by
          obtain ⟨_, _, _, raising⟩ := Attempt.ran_of_mem raised isThere
          exact raising)
        (fun attempt isThere => by
          obtain ⟨_, _, _, raising⟩ := Attempt.ran_of_mem reported isThere
          exact raising)
        (Attempt.sameOutcomes_of_settled raised reported)
        (fun attempt isThere => by
          obtain ⟨ended, isEnded, ran, _⟩ := Attempt.ran_of_mem reported isThere
          exact ran ▸ positive ended isEnded)
        (by
          rintro rfl
          exact absurd rfl (bne_iff_ne.mp uninterrupted))
    · rw [answer, Option.map_some, raises rfl, code]
      rfl
    · have isThere : attempt ∈ attempts (.ofDepth 1 6) .hidden false mixedChain
          (shellRaising "0") := by
        rw [split]
        exact List.mem_append_cons_self
      obtain ⟨_, _, ran, _⟩ := Attempt.ran_of_mem reported isThere
      rw [failed] at ran
      cases ran

/-- A failure to start is raised where the chain goes on, and so is a status inverted twice. -/
theorem chains_raise_before_their_end :
    ((value (.ofDepth 1 6) .hidden (.or (commandNamed "missing") (commandNamed "succeeds"))
          (shellRaising "1")).map (fun ended => raisedCode? ended.1) = some (some 127) ∧
      (chain (.ofDepth 1 6) .hidden (.or (commandNamed "missing") (commandNamed "succeeds"))
          (shellRaising "0")).map (fun ended => ended.1.toOption.map (·.code)) =
        some (some 0)) ∧
      (value (.ofDepth 1 6) .hidden (.not (.not (commandNamed "fails")))
          (shellRaising "1")).map (fun ended => raisedCode? ended.1) = some (some 3) ∧
      (chain (.ofDepth 1 6) .hidden (.not (.not (commandNamed "fails")))
          (shellRaising "0")).map (fun ended => ended.1.toOption.map (·.code)) =
        some (some 1) := by
  decide +kernel

end Instances

end HybridShell
