import HybridShell.Proofs.JobTable
import HybridShell.Proofs.OutsideActions

/-!
# Job operations keep the table in order

The jobs of a shell are in order when its table is and only pipelines that have
ended belong to jobs that are done.  Pipelines go on by themselves between the
operations; an operation looks at jobs, adds one or forgets some.  Every
operation keeps the jobs in order, leaves alone the jobs that are done, and
forgets a job that goes on only when it is asked to.
-/

namespace HybridShell

open JobTable

namespace Shell

def HasEnded (shell : Shell) (number : Nat) : Prop :=
  ∃ pipeline, shell.pipeline? number = some pipeline ∧ pipeline.isDone = true

/-- The pipelines go on, and the jobs are not touched. -/
structure GoesOn (before after : Shell) : Prop where
  jobs : after.jobs = before.jobs
  ended {number : Nat} : before.HasEnded number → after.HasEnded number

instance : IsPreorder Shell GoesOn where
  refl _ := ⟨rfl, id⟩
  trans _ _ _ first second := ⟨second.jobs.trans first.jobs, second.ended ∘ first.ended⟩

structure JobsInOrder (shell : Shell) : Prop where
  table : shell.jobs.WellFormed
  ended {job : Job} : job ∈ shell.jobs.jobs → job.state.isDone = true →
    shell.HasEnded job.pipeline

/-- Jobs were looked at: none came or went, and none that was done has another state. -/
structure SameJobs (before after : Shell) : Prop where
  ended {number : Nat} : before.HasEnded number → after.HasEnded number
  numbers : after.jobs.numbers = before.jobs.numbers
  kept {job : Job} : job ∈ before.jobs.jobs →
    ∃ state, { job with state } ∈ after.jobs.jobs ∧ (job.state.isDone = true → state = job.state)

instance : IsPreorder Shell SameJobs where
  refl _ := ⟨id, rfl, fun mem => ⟨_, mem, fun _ => rfl⟩⟩
  trans _ _ _ first second := by
    refine ⟨second.ended ∘ first.ended, second.numbers.trans first.numbers, fun mem => ?_⟩
    obtain ⟨state, mem, same⟩ := first.kept mem
    obtain ⟨later, mem, still⟩ := second.kept mem
    refine ⟨later, mem, fun done => ?_⟩
    obtain rfl := same done
    exact still done

/--
What an operation may do to the jobs.  Only an operation that drops jobs loses
one whose pipeline has not ended.
-/
structure JobStep (drops : Bool) (before after : Shell) : Prop where
  inOrder : after.JobsInOrder
  added {job : Job} : job ∈ after.jobs.jobs → job.id ∉ before.jobs.numbers →
    IsLeast {id | 1 ≤ id ∧ id ∉ before.jobs.numbers} job.id
  done {job : Job} : job ∈ before.jobs.jobs → job.state.isDone = true →
    job ∈ after.jobs.jobs ∨ job.id ∉ after.jobs.numbers
  kept {job : Job} : drops = false → job ∈ before.jobs.jobs → ¬ after.HasEnded job.pipeline →
    ∃ other ∈ after.jobs.jobs, other.id = job.id ∧ other.pipeline = job.pipeline

variable {before middle after : Shell}

theorem GoesOn.inOrder (goesOn : GoesOn before after) (inOrder : before.JobsInOrder) :
    after.JobsInOrder := by
  refine ⟨goesOn.jobs ▸ inOrder.table, fun mem done => ?_⟩
  rw [goesOn.jobs] at mem
  exact goesOn.ended (inOrder.ended mem done)

theorem GoesOn.sameJobs (goesOn : GoesOn before after) : SameJobs before after :=
  ⟨goesOn.ended, by rw [goesOn.jobs], fun mem => ⟨_, goesOn.jobs ▸ mem, fun _ => rfl⟩⟩

theorem SameJobs.jobStep (same : SameJobs before after) (inOrder : after.JobsInOrder)
    (drops : Bool) : JobStep drops before after := by
  refine ⟨inOrder, fun mem new => ?_, fun mem done => ?_, fun _ mem _ => ?_⟩
  · rw [← same.numbers] at new
    exact absurd (List.mem_map_of_mem mem) new
  · obtain ⟨state, mem, still⟩ := same.kept mem
    simp_all
  · obtain ⟨state, mem, _⟩ := same.kept mem
    exact ⟨_, mem, rfl, rfl⟩

variable {drops : Bool} {number : Nat}

/-- An operation that looks at the jobs before it does something to them. -/
theorem SameJobs.trans_jobStep (same : SameJobs before middle) (step : JobStep drops middle after) :
    JobStep drops before after := by
  refine ⟨step.inOrder, fun mem new => ?_, fun mem done => ?_, fun spares mem running => ?_⟩
  · rw [← same.numbers] at new ⊢
    exact step.added mem new
  · obtain ⟨state, mem, still⟩ := same.kept mem
    obtain rfl := still done
    exact step.done mem done
  · obtain ⟨state, mem, _⟩ := same.kept mem
    obtain ⟨other, otherMem, sameId, samePipeline⟩ := step.kept spares mem running
    exact ⟨other, otherMem, sameId, samePipeline⟩

theorem JobStep.trans_goesOn (step : JobStep drops before middle) (goesOn : GoesOn middle after) :
    JobStep drops before after := by
  refine ⟨goesOn.inOrder step.inOrder, ?_, ?_, fun spares mem running => ?_⟩
  · rw [goesOn.jobs]
    exact step.added
  · rw [goesOn.jobs]
    exact step.done
  · rw [goesOn.jobs]
    exact step.kept spares mem fun ended => running (goesOn.ended ended)

/-- Jobs are forgotten, and those that are still going only by an operation that drops jobs. -/
theorem JobsInOrder.forget {table : JobTable} (gone : Job → Prop) (inOrder : before.JobsInOrder)
    (wellFormed : table.WellFormed)
    (left : ∀ job, job ∈ table.jobs ↔ job ∈ before.jobs.jobs ∧ ¬ gone job)
    (ended : drops = false → ∀ job ∈ before.jobs.jobs, gone job → before.HasEnded job.pipeline) :
    JobStep drops before { before with jobs := table } := by
  refine ⟨⟨wellFormed, fun {job} mem done => ?_⟩, fun {job} mem new => ?_,
    fun {job} mem done => ?_, fun {job} spares mem running => ?_⟩
  · exact inOrder.ended ((left job).mp mem).1 done
  · exact absurd (List.mem_map_of_mem ((left job).mp mem).1) new
  · refine or_iff_not_imp_right.mpr fun used => ?_
    obtain ⟨other, otherMem, same⟩ := List.mem_map.mp (not_not.mp used)
    exact inOrder.table.eq_of_id ((left other).mp otherMem).1 mem same ▸ otherMem
  · refine ⟨job, (left job).mpr ⟨mem, fun isGone => ?_⟩, rfl, rfl⟩
    exact running (ended spares job mem isGone)

/-- A pipeline that has not ended becomes a job under the smallest free number. -/
theorem JobsInOrder.putNew {group : Option Int} {text : String} {state : JobState}
    (inOrder : before.JobsInOrder) (running : state.isDone = false) (drops : Bool) :
    JobStep drops before
      { before with jobs := before.jobs.put ⟨before.jobs.nextId, number, group, text, state⟩ } := by
  have least := isLeast_nextId before.jobs
  have kept {job : Job} (mem : job ∈ before.jobs.jobs) :
      job ∈ (before.jobs.put ⟨before.jobs.nextId, number, group, text, state⟩).jobs := by
    refine inOrder.table.mem_put.mpr (.inr ⟨mem, fun same => least.1.2 ?_⟩)
    exact List.mem_map.mpr ⟨job, mem, same⟩
  refine ⟨⟨inOrder.table.put least.1.1, fun mem done => ?_⟩, fun mem new => ?_,
    fun mem _ => .inl (kept mem), fun _ mem _ => ⟨_, kept mem, rfl, rfl⟩⟩
  · rcases inOrder.table.mem_put.mp mem with rfl | ⟨mem, _⟩
    · simp_all
    · exact inOrder.ended mem done
  · rcases inOrder.table.mem_put.mp mem with rfl | ⟨mem, _⟩
    · exact least
    · exact absurd (List.mem_map_of_mem mem) new

/-! ### Looking at pipelines -/

theorem hasEnded_set {shell : Shell} {other : Nat} {pipeline waited : Pipeline}
    (found : shell.pipeline? number = some pipeline)
    (stays : pipeline.isDone = true → waited.isDone = true) (machine : Machine)
    (ended : shell.HasEnded other) :
    HasEnded { shell with machine, pipelines := shell.pipelines.set number waited } other := by
  obtain ⟨known, holds, done⟩ := ended
  by_cases same : number = other
  · subst same
    obtain rfl : pipeline = known := Option.some.inj (found.symm.trans holds)
    exact ⟨waited, Action.pipeline?_after found machine, stays done⟩
  · exact ⟨known, (shell.pipelines.get?_set_of_ne waited same).trans holds, done⟩

end Shell

open Shell

namespace Action

variable {α : Type}

variable {number : Nat} {before after : Shell}

/-- A wait that leaves ended pipelines ended lets the pipelines go on. -/
theorem goesOn_withPipeline {wait : Machine → Pipeline → Option (Waited α)}
    (stays : ∀ ⦃machine pipeline waited⦄, wait machine pipeline = some waited →
      pipeline.isDone = true → waited.pipeline.isDone = true) :
    Keeps GoesOn (withPipeline number wait) := by
  intro before after result answer
  obtain ⟨pipeline, waited, found, waits, _, rfl⟩ := withPipeline_eq_some_iff.mp answer
  exact ⟨rfl, hasEnded_set found (stays waits) waited.machine⟩

theorem goesOn_resumePipeline (number : Nat) : Keeps GoesOn (resumePipeline number) := by
  refine goesOn_withPipeline fun machine pipeline waited answer done => ?_
  cases answer
  exact done

theorem goesOn_complain (text : String) : Keeps GoesOn (modify (·.complain text) : Action Unit) :=
  .modify fun _ => ⟨rfl, id⟩

theorem pollPipeline_eq_some {polled : Pipeline}
    (answer : pollPipeline number before = some (polled, after)) :
    GoesOn before after ∧ after.pipeline? number = some polled := by
  have goesOn : Keeps GoesOn (pollPipeline number) := by
    refine goesOn_withPipeline fun machine pipeline waited answer done => ?_
    cases answer
    exact Pipeline.isDone_poll done
  obtain ⟨pipeline, waited, found, waits, shown, rfl⟩ := withPipeline_eq_some_iff.mp answer
  refine ⟨goesOn answer, ?_⟩
  cases waits
  exact shown ▸ pipeline?_after found _

/-- A wait in the foreground is over when the pipeline has ended or stands still. -/
theorem waitFor_eq_some {rounds : Nat} {result : Except ProcessError WaitEnd}
    (answer : withPipeline number (Pipeline.waitFor true rounds) before = some (result, after)) :
    GoesOn before after ∧
      (after.HasEnded number ∧ result ≠ .ok .stopped ∨
        ¬ after.HasEnded number ∧ result = .ok .stopped) := by
  have goesOn : Keeps GoesOn (withPipeline number (Pipeline.waitFor true rounds)) := by
    exact goesOn_withPipeline fun _ _ _ answer done => Pipeline.isDone_waitFor done answer
  obtain ⟨pipeline, waited, found, waits, rfl, rfl⟩ := withPipeline_eq_some_iff.mp answer
  refine ⟨goesOn answer, ?_⟩
  have shown : Shell.pipeline? { before with
      machine := waited.machine
      pipelines := before.pipelines.set number waited.pipeline } number =
        some waited.pipeline := pipeline?_after found waited.machine
  rcases Pipeline.waitFor_cases waits with ⟨done, interrupted | finished⟩ | ⟨running, stopped, _⟩
  · exact .inl ⟨⟨waited.pipeline, shown, done⟩, by rw [interrupted]; rintro ⟨⟩⟩
  · exact .inl ⟨⟨waited.pipeline, shown, done⟩, by rw [finished]; rintro ⟨⟩⟩
  · refine .inr ⟨?_, stopped⟩
    rintro ⟨known, holds, done⟩
    simp_all

end Action

namespace JobControl

variable {before after : Shell} {id number : Nat}

/-! ### Looking at jobs -/

variable {state : JobState} {result : Except ProcessError Int}

theorem sameJobs_setState
    (running : ∀ job ∈ before.jobs.jobs, job.id = id → job.state.isDone = false) :
    SameJobs before { before with jobs := before.jobs.setState id state } := by
  refine ⟨fun ended => ended, numbers_setState state, fun {job} mem => ?_⟩
  by_cases same : job.id = id
  · refine ⟨state, List.mem_map.mpr ⟨job, mem, if_pos same⟩, fun done => ?_⟩
    simp_all
  · exact ⟨job.state, List.mem_map.mpr ⟨job, mem, if_neg same⟩, fun _ => rfl⟩

theorem inOrder_setState (inOrder : before.JobsInOrder)
    (ended : ∀ job ∈ before.jobs.jobs, job.id = id → state.isDone = true →
      before.HasEnded job.pipeline) :
    JobsInOrder { before with jobs := before.jobs.setState id state } := by
  refine ⟨inOrder.table.setState id state, fun {job} mem done => ?_⟩
  obtain ⟨known, knownMem, changed⟩ := List.mem_map.mp mem
  split at changed
  · next same =>
    subst changed
    exact ended known knownMem same done
  · subst changed
    exact inOrder.ended knownMem done

variable {job : Job} {rounds : Nat} {spec : Option String}

theorem refreshJob_eq_some (inOrder : before.JobsInOrder) (mem : job ∈ before.jobs.jobs)
    (answer : refreshJob job before = some ((), after)) :
    SameJobs before after ∧ after.JobsInOrder ∧
      ∀ other ∈ before.jobs.jobs, other.id ≠ job.id → other ∈ after.jobs.jobs := by
  unfold refreshJob at answer
  split at answer
  · cases answer
    exact ⟨Std.Refl.refl before, inOrder, fun _ mem _ => mem⟩
  · next running =>
    obtain ⟨polled, middle, polls, changed⟩ := Action.bind_eq_some_iff.mp answer
    cases changed
    obtain ⟨goesOn, found⟩ := Action.pollPipeline_eq_some polls
    have unique (known : Job) (knownMem : known ∈ middle.jobs.jobs) (same : known.id = job.id) :
        known = job :=
      inOrder.table.eq_of_id (goesOn.jobs ▸ knownMem) mem same
    refine ⟨IsTrans.trans _ _ _ goesOn.sameJobs (sameJobs_setState ?_),
      inOrder_setState (goesOn.inOrder inOrder) ?_, fun other otherMem distinct => ?_⟩
    · grind
    · intro known knownMem same done
      rw [unique known knownMem same]
      refine ⟨polled, found, ?_⟩
      unfold stateAfter at done
      split at done
      · assumption
      · split at done
        · cases done
        · exact absurd done running
    · rw [← goesOn.jobs] at otherMem
      exact List.mem_map.mpr ⟨other, otherMem, if_neg distinct⟩

theorem refreshAll_eq_some {jobs : List Job} (inOrder : before.JobsInOrder)
    (distinct : (jobs.map Job.id).Nodup) (mem : ∀ job ∈ jobs, job ∈ before.jobs.jobs)
    (answer : jobs.forM refreshJob before = some ((), after)) :
    SameJobs before after ∧ after.JobsInOrder := by
  induction jobs generalizing before with
  | nil =>
    cases answer
    exact ⟨Std.Refl.refl _, inOrder⟩
  | cons job rest ih =>
    rw [List.map_cons, List.nodup_cons] at distinct
    obtain ⟨_, middle, looks, goesOn⟩ := Action.bind_eq_some_iff.mp answer
    obtain ⟨same, ordered, others⟩ :=
      refreshJob_eq_some inOrder (mem job List.mem_cons_self) looks
    -- The jobs that are still to be looked at are as they were, their numbers being others.
    have left (other : Job) (later : other ∈ rest) : other ∈ middle.jobs.jobs := by simp_all
    obtain ⟨still, inOrder⟩ := ih ordered distinct.2 left goesOn
    exact ⟨IsTrans.trans _ _ _ same still, inOrder⟩

theorem refresh_eq_some (inOrder : before.JobsInOrder)
    (answer : refresh before = some ((), after)) :
    SameJobs before after ∧ after.JobsInOrder :=
  refreshAll_eq_some inOrder inOrder.table.nodup_numbers (fun _ mem => mem) answer

/-! ### The operations -/

theorem jobStep_addBackground {added : Option Nat} (inOrder : before.JobsInOrder)
    (answer : addBackground number before = some (added, after)) :
    JobStep false before after := by
  have unchanged : JobStep false before before :=
    SameJobs.jobStep (Std.Refl.refl before) inOrder false
  obtain ⟨shell, _, same, answer⟩ := Action.bind_eq_some_iff.mp answer
  cases same
  cases found : before.pipeline? number with rw [found] at answer
  | none =>
    cases answer
    exact unchanged
  | some pipeline =>
    dsimp only at answer
    split at answer <;> cases answer
    · exact inOrder.putNew rfl false
    · exact unchanged

/-- After a wait the pipeline has ended, or it was put into the table as a job that stands still. -/
theorem waitAs_cases {id? : Option Nat}
    (answer : waitAs rounds number id? before = some (result, after)) :
    ∃ middle, GoesOn before middle ∧
      (middle.HasEnded number ∧ after = middle ∨
        ¬ middle.HasEnded number ∧ ∃ group text, GoesOn
          { middle with
            jobs := middle.jobs.put
              ⟨id?.getD middle.jobs.nextId, number, group, text, .stopped⟩ } after) := by
  obtain ⟨found, middle, waits, answer⟩ := Action.bind_eq_some_iff.mp answer
  obtain ⟨goesOn, ⟨ended, notStopped⟩ | ⟨running, rfl⟩⟩ := Action.waitFor_eq_some waits
  · refine ⟨middle, goesOn, .inl ⟨ended, ?_⟩⟩
    match found with
    | .error error =>
      cases answer
      rfl
    | .ok (.finished code) =>
      cases answer
      rfl
    | .ok .stopped => exact absurd rfl notStopped
  · refine ⟨middle, goesOn, .inr ⟨running, ?_⟩⟩
    obtain ⟨shell, _, same, answer⟩ := Action.bind_eq_some_iff.mp answer
    cases same
    cases found : middle.pipeline? number with
    | none =>
      -- A pipeline that was waited for is still there.
      obtain ⟨pipeline, waited, held, _, _, rfl⟩ := Action.withPipeline_eq_some_iff.mp waits
      rw [Action.pipeline?_after held] at found
      cases found
    | some pipeline =>
      rw [found] at answer
      refine ⟨pipeline.group, pipeline.displayText, ?_⟩
      cases id? with cases answer
      | none =>
        exact ⟨rfl, fun ended => ended⟩
      | some id =>
        exact ⟨rfl, fun ended => ended⟩

theorem jobStep_waitForeground (inOrder : before.JobsInOrder)
    (answer : waitForeground rounds number before = some (result, after)) :
    JobStep false before after := by
  obtain ⟨middle, goesOn, ⟨_, rfl⟩ | ⟨_, group, text, later⟩⟩ := waitAs_cases answer
  · exact goesOn.sameJobs.jobStep (goesOn.inOrder inOrder) false
  · refine goesOn.sameJobs.trans_jobStep (JobStep.trans_goesOn ?_ later)
    exact (goesOn.inOrder inOrder).putNew rfl false

/-- A job that stands still again is put back, unless it was done before. -/
theorem jobStep_putBack {group : Option Int} {text : String} (inOrder : before.JobsInOrder)
    (mem : job ∈ before.jobs.jobs)
    (goesOn : GoesOn { before with jobs := before.jobs.remove job.id } after)
    (running : ¬ after.HasEnded job.pipeline) :
    JobStep false before
      { after with jobs := after.jobs.put ⟨job.id, job.pipeline, group, text, .stopped⟩ } := by
  have wellFormed : after.jobs.WellFormed := by
    rw [goesOn.jobs]
    exact inOrder.table.remove job.id
  have left {other : Job} :
      other ∈ (after.jobs.put ⟨job.id, job.pipeline, group, text, .stopped⟩).jobs ↔
        other = ⟨job.id, job.pipeline, group, text, .stopped⟩ ∨
          other ∈ before.jobs.jobs ∧ other.id ≠ job.id := by
    rw [wellFormed.mem_put, goesOn.jobs, mem_remove]
    exact or_congr_right ⟨fun both => both.1, fun mem => ⟨mem, mem.2⟩⟩
  have ended {other : Job} (otherMem : other ∈ before.jobs.jobs)
      (done : other.state.isDone = true) : after.HasEnded other.pipeline :=
    goesOn.ended (inOrder.ended otherMem done)
  refine ⟨⟨wellFormed.put (inOrder.table.positive _ (List.mem_map.mpr ⟨job, mem, rfl⟩)),
    fun otherMem done => ?_⟩, fun otherMem new => ?_, fun {other} otherMem done => ?_,
    fun {other} _ otherMem _ => ?_⟩
  · rcases left.mp otherMem with rfl | ⟨otherMem, _⟩
    · cases done
    · exact ended otherMem done
  · rcases left.mp otherMem with rfl | ⟨otherMem, _⟩
    · exact absurd (List.mem_map.mpr ⟨job, mem, rfl⟩) new
    · exact absurd (List.mem_map_of_mem otherMem) new
  -- A job that was done is not the one that is put back: its pipeline has ended.
  · refine .inl (left.mpr (.inr ⟨otherMem, fun same => running ?_⟩))
    obtain rfl := inOrder.table.eq_of_id otherMem mem same
    exact ended mem done
  · by_cases same : other.id = job.id
    · obtain rfl := inOrder.table.eq_of_id otherMem mem same
      exact ⟨_, left.mpr (.inl rfl), rfl, rfl⟩
    · exact ⟨other, left.mpr (.inr ⟨otherMem, same⟩), rfl, rfl⟩

/-- A job that is taken out of the table while the pipelines go on has ended in the end. -/
theorem jobStep_takeOut (inOrder : before.JobsInOrder) (mem : job ∈ before.jobs.jobs)
    (goesOn : GoesOn { before with jobs := before.jobs.remove job.id } after)
    (ended : after.HasEnded job.pipeline) : JobStep false before after := by
  have forgets : JobStep true before { before with jobs := before.jobs.remove job.id } :=
    inOrder.forget (·.id = job.id) (inOrder.table.remove job.id) (fun _ => mem_remove)
      (by rintro ⟨⟩)
  have step := forgets.trans_goesOn goesOn
  refine ⟨step.inOrder, step.added, step.done, fun {other} _ otherMem running => ?_⟩
  refine ⟨other, ?_, rfl, rfl⟩
  rw [goesOn.jobs]
  refine mem_remove.mpr ⟨otherMem, fun same => running ?_⟩
  rwa [inOrder.table.eq_of_id otherMem mem same]

theorem jobStep_foreground {result : Except JobError Int} (inOrder : before.JobsInOrder)
    (answer : foreground rounds spec before = some (result, after)) :
    JobStep false before after := by
  have unchanged : JobStep false before before :=
    SameJobs.jobStep (Std.Refl.refl before) inOrder false
  obtain ⟨shell, _, same, answer⟩ := Action.bind_eq_some_iff.mp answer
  cases same
  cases picked : before.jobs.pick spec with rw [picked] at answer
  | error error =>
    cases answer
    exact unchanged
  | ok id =>
    dsimp only at answer
    cases found : before.jobs.get? id with rw [found] at answer
    | none =>
      cases answer
      exact unchanged
    | some job =>
      obtain ⟨mem, rfl⟩ := get?_eq_some found
      obtain ⟨_, removed, removes, answer⟩ := Action.bind_eq_some_iff.mp answer
      cases removes
      obtain ⟨_, told, tells, answer⟩ := Action.bind_eq_some_iff.mp answer
      obtain ⟨_, resumed, resumes, answer⟩ := Action.bind_eq_some_iff.mp answer
      obtain ⟨_, waited, waits, same⟩ := Action.bind_eq_some_iff.mp answer
      cases same
      have started : GoesOn { before with jobs := before.jobs.remove job.id } resumed :=
        IsTrans.trans _ _ _ (Action.goesOn_complain _ tells)
          (Action.goesOn_resumePipeline _ resumes)
      obtain ⟨middle, goesOn, ⟨ended, rfl⟩ | ⟨running, group, text, later⟩⟩ :=
        waitAs_cases waits
      · exact jobStep_takeOut inOrder mem (IsTrans.trans _ _ _ started goesOn) ended
      · have gone := IsTrans.trans _ _ _ started goesOn
        exact (jobStep_putBack inOrder mem gone running).trans_goesOn later

theorem jobStep_resume {machine : Machine} (inOrder : before.JobsInOrder)
    (mem : job ∈ before.jobs.jobs) (running : job.state.isDone = false) :
    JobStep false before
      { before with
        machine
        jobs := (before.jobs.setState job.id .background).touch job.id } := by
  have changed : SameJobs before
      { before with jobs := before.jobs.setState job.id .background } := by
    refine sameJobs_setState fun other otherMem same => ?_
    rwa [inOrder.table.eq_of_id otherMem mem same]
  have ordered : JobsInOrder { before with jobs := before.jobs.setState job.id .background } :=
    inOrder_setState inOrder fun _ _ _ done => by cases done
  have used : job.id ∈ (before.jobs.setState job.id .background).numbers := by
    rw [numbers_setState]
    exact List.mem_map_of_mem mem
  refine changed.trans_jobStep (SameJobs.jobStep ?_ ?_ false)
  · exact ⟨fun ended => ended, rfl, fun mem => ⟨_, mem, fun _ => rfl⟩⟩
  · exact ⟨ordered.table.touch used, ordered.ended⟩

theorem jobStep_background {result : Except JobError Nat} (inOrder : before.JobsInOrder)
    (answer : background spec before = some (result, after)) : JobStep false before after := by
  obtain ⟨_, looked, looks, answer⟩ := Action.bind_eq_some_iff.mp answer
  obtain ⟨same, inOrder⟩ := refresh_eq_some inOrder looks
  have unchanged : JobStep false before looked := same.jobStep inOrder false
  obtain ⟨shell, _, same, answer⟩ := Action.bind_eq_some_iff.mp answer
  cases same
  cases picked : looked.jobs.pick spec with rw [picked] at answer
  | error error =>
    cases answer
    exact unchanged
  | ok id =>
    dsimp only at answer
    cases found : looked.jobs.get? id with rw [found] at answer
    | none =>
      cases answer
      exact unchanged
    | some job =>
      obtain ⟨mem, rfl⟩ := get?_eq_some found
      dsimp only at answer
      split at answer
      · cases answer
        exact unchanged
      · next notDone =>
        obtain ⟨middle, machine, goesOn, rfl⟩ : ∃ middle machine, GoesOn looked middle ∧
            after = { middle with
              machine
              jobs := (middle.jobs.setState job.id .background).touch job.id } := by
          split at answer
          · obtain ⟨_, resumed, resumes, answer⟩ := Action.bind_eq_some_iff.mp answer
            cases answer
            exact ⟨resumed, _, Action.goesOn_resumePipeline _ resumes, rfl⟩
          · cases answer
            exact ⟨looked, _, Std.Refl.refl looked, rfl⟩
        refine same.trans_jobStep (goesOn.sameJobs.trans_jobStep ?_)
        rw [← goesOn.jobs] at mem
        exact jobStep_resume (goesOn.inOrder inOrder) mem (Bool.eq_false_iff.mpr notDone)

theorem jobStep_disown {result : Except JobError Nat} (inOrder : before.JobsInOrder)
    (answer : disown spec before = some (result, after)) : JobStep true before after := by
  obtain ⟨shell, _, same, answer⟩ := Action.bind_eq_some_iff.mp answer
  cases same
  cases picked : before.jobs.pick spec with rw [picked] at answer
  | error error =>
    cases answer
    exact SameJobs.jobStep (Std.Refl.refl before) inOrder true
  | ok id =>
    obtain ⟨_, removed, removes, answer⟩ := Action.bind_eq_some_iff.mp answer
    cases removes
    have forgets : JobStep true before { before with jobs := before.jobs.remove id } :=
      inOrder.forget (·.id = id) (inOrder.table.remove id) (fun _ => mem_remove)
        (by rintro ⟨⟩)
    cases found : before.jobs.get? id with rw [found] at answer
    | none =>
      cases answer
      exact forgets
    | some job =>
      dsimp only at answer
      split at answer
      · obtain ⟨_, resumed, resumes, answer⟩ := Action.bind_eq_some_iff.mp answer
        cases answer
        exact forgets.trans_goesOn (Action.goesOn_resumePipeline _ resumes)
      · cases answer
        exact forgets

theorem jobStep_reap {reaped : List JobInfo} (inOrder : before.JobsInOrder)
    (answer : reap before = some (reaped, after)) : JobStep false before after := by
  obtain ⟨_, looked, looks, answer⟩ := Action.bind_eq_some_iff.mp answer
  obtain ⟨same, inOrder⟩ := refresh_eq_some inOrder looks
  cases answer
  refine same.trans_jobStep (inOrder.forget (·.state.isDone = true)
    (inOrder.table.removeAll _) (fun job => ?_) fun _ job mem done => inOrder.ended mem done)
  rw [mem_removeAll]
  refine and_congr_right fun mem => ⟨fun others done => ?_, fun running other otherMem same => ?_⟩
  · exact others job (List.mem_filter.mpr ⟨mem, done⟩) rfl
  · obtain ⟨otherMem, done⟩ := List.mem_filter.mp otherMem
    obtain rfl := inOrder.table.eq_of_id mem otherMem same
    exact running done

end JobControl

/-! ### Histories -/

/-- What can be asked of the jobs. -/
inductive JobOperation where
  | addBackground (number : Nat)
  /-- Wait for a pipeline that was started in the foreground. -/
  | waitForeground (number : Nat)
  | foreground (spec : Option String)
  | background (spec : Option String)
  | disown (spec : Option String)
  | refresh
  | reap
  | list

namespace JobOperation

def drops : JobOperation → Bool
  | disown _ => true
  | _ => false

def perform (rounds : Nat) : JobOperation → Action Unit
  | addBackground number => do let _ ← JobControl.addBackground number
  | waitForeground number => do let _ ← JobControl.waitForeground rounds number
  | foreground spec => do let _ ← JobControl.foreground rounds spec
  | background spec => do let _ ← JobControl.background spec
  | disown spec => do let _ ← JobControl.disown spec
  | refresh => JobControl.refresh
  | reap => do let _ ← JobControl.reap
  | list => do let _ ← JobControl.list

variable {before after : Shell}

theorem eq_some_of_discarded {α : Type} {action : Action α}
    (performed : (action >>= fun _ => pure ()) before = some ((), after)) :
    ∃ result, action before = some (result, after) := by
  obtain ⟨result, middle, performed, same⟩ := Action.bind_eq_some_iff.mp performed
  cases same
  exact ⟨result, performed⟩

theorem jobStep_perform {rounds : Nat} {operation : JobOperation} (inOrder : before.JobsInOrder)
    (performed : operation.perform rounds before = some ((), after)) :
    JobStep operation.drops before after := by
  cases operation with try obtain ⟨_, performed⟩ := eq_some_of_discarded performed
  | refresh =>
    obtain ⟨same, inOrder⟩ := JobControl.refresh_eq_some inOrder performed
    exact same.jobStep inOrder false
  | list =>
    obtain ⟨_, looked, looks, listed⟩ := Action.bind_eq_some_iff.mp performed
    cases listed
    obtain ⟨same, inOrder⟩ := JobControl.refresh_eq_some inOrder looks
    exact same.jobStep inOrder false
  | addBackground number =>
    exact JobControl.jobStep_addBackground inOrder performed
  | waitForeground number =>
    exact JobControl.jobStep_waitForeground inOrder performed
  | foreground spec =>
    exact JobControl.jobStep_foreground inOrder performed
  | background spec =>
    exact JobControl.jobStep_background inOrder performed
  | disown spec =>
    exact JobControl.jobStep_disown inOrder performed
  | reap =>
    exact JobControl.jobStep_reap inOrder performed

end JobOperation

/--
The shells that operations lead to from one without jobs, one operation at a
time, while the pipelines go on in between.
-/
inductive JobHistory : Shell → Prop
  | start (noJobs : shell.jobs = .empty) : JobHistory shell
  | meanwhile (history : JobHistory before) (goesOn : GoesOn before after) : JobHistory after
  | operation (history : JobHistory before) (rounds : Nat) (operation : JobOperation)
      (performed : operation.perform rounds before = some ((), after)) : JobHistory after

theorem JobHistory.inOrder {shell : Shell} (history : JobHistory shell) : shell.JobsInOrder := by
  induction history with
  | @start shell noJobs =>
    refine ⟨noJobs ▸ wellFormed_empty, fun mem _ => ?_⟩
    rw [noJobs] at mem
    cases mem
  | meanwhile _ goesOn ih => exact goesOn.inOrder ih
  | operation _ rounds operation performed ih =>
    exact (operation.jobStep_perform ih performed).inOrder

/--
The job table through every history: the order of use lists the numbers of the
jobs once each, the numbers are positive and find their jobs, and the marks
pick one job each.  An operation numbers a new job with the smallest free
number, leaves the state of a job that is done while the job is there, and
forgets a job whose pipeline has not ended only if it is asked to disown it.
-/
theorem job_table_is_kept_in_order {before : Shell} (history : JobHistory before) :
    before.jobs.order.Nodup ∧
    (∀ id, id ∈ before.jobs.order ↔ before.jobs.contains id = true) ∧
    (∀ job ∈ before.jobs.jobs, 1 ≤ job.id ∧ before.jobs.get? job.id = some job) ∧
    (before.jobs.jobs ≠ [] →
      ∃! job, job ∈ before.jobs.jobs ∧ before.jobs.marker job.id = '+') ∧
    (2 ≤ before.jobs.jobs.length →
      ∃! job, job ∈ before.jobs.jobs ∧ before.jobs.marker job.id = '-') ∧
    ∀ (rounds : Nat) (operation : JobOperation) (after : Shell),
      operation.perform rounds before = some ((), after) →
        (∀ job ∈ after.jobs.jobs, before.jobs.contains job.id = false →
          IsLeast {id | 1 ≤ id ∧ before.jobs.contains id = false} job.id) ∧
        (∀ job ∈ before.jobs.jobs, job.state.isDone = true →
          job ∈ after.jobs.jobs ∨ after.jobs.contains job.id = false) ∧
        ∀ job ∈ before.jobs.jobs, operation.drops = false → ¬ after.HasEnded job.pipeline →
          ∃ other ∈ after.jobs.jobs, other.id = job.id ∧ other.pipeline = job.pipeline := by
  have inOrder := history.inOrder
  have table := inOrder.table
  refine ⟨table.nodup, fun id => ?_, fun job mem => ?_, table.existsUnique_plus,
    table.existsUnique_minus, fun rounds operation after performed => ?_⟩
  · rw [JobTable.contains_iff, table.mem_order]
  · exact ⟨table.positive _ (List.mem_map_of_mem mem), table.get?_of_mem mem⟩
  · have step := operation.jobStep_perform inOrder performed
    simp only [JobTable.contains_eq_false_iff]
    exact ⟨fun job => step.added, fun job => step.done, fun job mem spares => step.kept spares mem⟩

def backgroundPipeline (outcome : Option Outcome) : Pipeline :=
  { arguments := [["sleep", "9"]]
    aliases := [none]
    capture := .uncaptured
    background := true
    group := none
    output := none
    errors := none
    observed := none
    flag := 1
    interruptPending := false
    raises := false
    stages := [⟨.process 0, outcome, false⟩]
    verdict := outcome.map fun ended => ⟨ended.returncode, 0⟩
    outputText := none
    started := 0
    ended := none }

def backgroundShell : Shell :=
  { Shell.start (.start ⟨∅, "/"⟩ []) (.start "/" ∅ false) with
    pipelines :=
      (Store.empty.add (backgroundPipeline none)).add (backgroundPipeline (some (.exited 0))) }

/-- Of two jobs the current one has ended and is gone after it was waited for. -/
theorem job_table_is_kept_in_order_foreground :
    ∃ before after, JobHistory before ∧ 2 ≤ before.jobs.jobs.length ∧
      (JobOperation.foreground none).perform 1 before = some ((), after) ∧
      ¬ after.HasEnded 0 ∧
      (∃! job, job ∈ before.jobs.jobs ∧ before.jobs.marker job.id = '-') ∧
      after.jobs.contains 2 = false ∧
      ∃ job ∈ after.jobs.jobs, job.id = 1 ∧ job.pipeline = 0 := by
  have start : JobHistory backgroundShell := .start rfl
  have history : JobHistory _ :=
    .operation (.operation start 0 (.addBackground 0) rfl) 0 (.addBackground 1) rfl
  obtain ⟨_, _, _, _, minus, step⟩ := job_table_is_kept_in_order history
  obtain ⟨_, _, kept⟩ := step 1 (.foreground none) _ rfl
  have goesOn {shell : Shell} (found : shell.pipeline? 0 = some (backgroundPipeline none)) :
      ¬ shell.HasEnded 0 := by
    rintro ⟨pipeline, holds, done⟩
    rw [found] at holds
    cases holds
    cases done
  exact ⟨_, _, history, Nat.le_refl 2, rfl, goesOn rfl, minus (Nat.le_refl 2), rfl,
    kept _ List.mem_cons_self rfl (goesOn rfl)⟩

end HybridShell
