import HybridShell.Process.Failure

/-!
# The job table

Jobs are pipelines that the shell does not wait for.  A job has the smallest
number that was free when it was added; the job used last is the current one.
-/

namespace HybridShell

inductive JobState where
  | running
  | stopped
  | background
  | done (code : Int)
  deriving Repr, DecidableEq

namespace JobState

def name : JobState → String
  | running => "running"
  | stopped => "stopped"
  | background => "background"
  | done _ => "done"

def display : JobState → String
  | background => "running"
  | other => other.name

def isDone : JobState → Bool
  | done _ => true
  | _ => false

def code? : JobState → Option Int
  | done code => some code
  | _ => none

end JobState

structure Job where
  id : Nat
  pipeline : Nat
  group : Option Int
  text : String
  state : JobState
  deriving Repr, DecidableEq

inductive JobError where
  | noSuchJob (spec : String)
  | noCurrentJob
  | finished (id : Nat)
  | process (error : ProcessError)
  deriving Repr, DecidableEq

namespace JobError

def message : JobError → String
  | noSuchJob spec => spec ++ ": no such job"
  | noCurrentJob => "no current job"
  | finished id => "job " ++ toString id ++ " has already finished"
  | process error => error.message

end JobError

/-- The jobs by number, and the numbers in the order of their last use. -/
structure JobTable where
  jobs : List Job
  order : List Nat
  deriving Repr, DecidableEq

namespace JobTable

def empty : JobTable :=
  ⟨[], []⟩

variable (table : JobTable)

def get? (id : Nat) : Option Job :=
  table.jobs.find? (·.id = id)

def contains (id : Nat) : Bool :=
  table.jobs.any (·.id = id)

def touch (id : Nat) : JobTable :=
  { table with order := table.order.filter (· ≠ id) ++ [id] }

def remove (id : Nat) : JobTable :=
  ⟨table.jobs.filter (·.id ≠ id), table.order.filter (· ≠ id)⟩

/-- Put a job in its place among jobs in the order of their numbers, over one of the same number. -/
def place (job : Job) : List Job → List Job
  | [] => [job]
  | other :: rest =>
    if other.id < job.id then other :: place job rest
    else if other.id = job.id then job :: rest
    else job :: other :: rest

def put (job : Job) : JobTable :=
  { table with jobs := place job table.jobs }.touch job.id

/-- The smallest number from a candidate on that is not in use, among the next few. -/
def freeFrom (table : JobTable) : Nat → Nat → Nat
  | 0, candidate => candidate
  | tries + 1, candidate =>
    if table.contains candidate then table.freeFrom tries (candidate + 1) else candidate

def nextId : Nat :=
  table.freeFrom (table.jobs.length + 1) 1

def unfinished : List Job :=
  table.jobs.filter (!·.state.isDone)

def isStopped (id : Nat) : Bool :=
  (table.get? id).any (·.state = .stopped)

def current? : Option Nat :=
  table.order.getLast?

def previous? : Option Nat :=
  table.order.dropLast.getLast?

def marker (id : Nat) : Char :=
  if table.current? = some id then '+'
  else if table.previous? = some id then '-'
  else ' '

def number? (digits : List Char) : Option Nat :=
  let unsigned := match digits with
    | '+' :: rest => rest
    | other => other
  if unsigned.isEmpty ∨ ¬ unsigned.all Char.isDigit then none
  else some (unsigned.foldl (fun value digit => 10 * value + (digit.toNat - '0'.toNat)) 0)

def candidate? (spec : String) : Option Nat :=
  match spec.toList.dropWhile (· = '%') with
  | [] => table.current?
  | ['+'] => table.current?
  | ['-'] => table.previous?
  | digits => number? digits

def pick : Option String → Except JobError Nat
  | none => table.current?.elim (.error .noCurrentJob) .ok
  | some spec =>
    match (table.candidate? spec).filter table.contains with
    | some id => .ok id
    | none => .error (.noSuchJob spec)

def setState (id : Nat) (state : JobState) : JobTable :=
  { table with
    jobs := table.jobs.map fun job => if job.id = id then { job with state } else job }

end JobTable

end HybridShell
