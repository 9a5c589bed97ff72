import HybridShell.Proofs.DecisionSettles

/-!
# Stray loop ends

A `break` or `continue` belongs to the closest loop around it in the text of
the same body.  One without such a loop is stray.  A function definition is a
body of its own, so nothing strays out of it in the text.

A statement whose reading is open strays when one of its readings does, so
that deciding between readings never makes a block stray.
-/

namespace HybridShell

namespace Straying

mutual

/-- Whether a `break` or `continue` of a block has no loop of the block around it. -/
def block : List Statement → Bool
  | [] => false
  | first :: rest => statement first || block rest

def statement : Statement → Bool
  | .breakLoop | .continueLoop => true
  | .undecided written => readings written
  | .conditional branches => alternatives branches
  | .simple _ | .whileLoop _ _ | .forLoop _ _ _ | .define _ _ _ _ | .returnValue _ | .pass =>
    false

def readings : Readings → Bool
  | ⟨.ok host, .ok command, _⟩ => statement host || statement command
  | ⟨.ok host, .error _, _⟩ => statement host
  | ⟨.error _, .ok command, _⟩ => statement command
  | ⟨.error _, .error _, _⟩ => false

def alternatives : Alternatives → Bool
  | .none => false
  | .otherwise body => block body
  | .branch _ body rest => block body || alternatives rest

end

theorem block_nil : block [] = false := rfl

theorem block_cons (first : Statement) (rest : List Statement) :
    block (first :: rest) = (statement first || block rest) := rfl

theorem block_cons_eq_false_iff {first : Statement} {rest : List Statement} :
    block (first :: rest) = false ↔ statement first = false ∧ block rest = false := by
  rw [block_cons, Bool.or_eq_false_iff]

theorem block_single (written : Statement) : block [written] = statement written := by
  rw [block_cons, block_nil, Bool.or_false]

theorem readings_both (host command : Statement) (span : Span) :
    readings ⟨.ok host, .ok command, span⟩ = (statement host || statement command) := rfl

theorem alternatives_branch (condition : Expr) (body : List Statement) (rest : Alternatives) :
    alternatives (.branch condition body rest) = (block body || alternatives rest) := rfl

theorem alternatives_branch_eq_false_iff {condition : Expr} {body : List Statement}
    {rest : Alternatives} :
    alternatives (.branch condition body rest) = false ↔
      block body = false ∧ alternatives rest = false := by
  rw [alternatives_branch, Bool.or_eq_false_iff]

end Straying

namespace Decision

mutual

theorem straying_of_block (scope : Scope) :
    (body : List Statement) → {decided : List Statement} → {after : Scope} →
      block scope body = .ok (decided, after) → Straying.block body = false →
        Straying.block decided = false
  | [], _, _, ok, _ => by cases ok; rfl
  | first :: rest, _, _, ok, stays => by
    obtain ⟨head, after, others, firstOk, restOk, rfl⟩ := block_cons_eq_ok ok
    obtain ⟨firstStays, restStays⟩ := Straying.block_cons_eq_false_iff.mp stays
    exact Straying.block_cons_eq_false_iff.mpr
      ⟨straying_of_statement scope first firstOk firstStays,
        straying_of_block after rest restOk restStays⟩

theorem straying_of_statement (scope : Scope) :
    (written : Statement) → {decided : Statement} → {after : Scope} →
      statement scope written = .ok (decided, after) → Straying.statement written = false →
        Straying.statement decided = false
  | .undecided readings, _, _, ok, stays => straying_of_selected scope readings ok stays
  | .conditional branches, _, _, ok, stays => by
    rw [statement] at ok
    split at ok
    · cases ok
    · next decided after branchesOk =>
      cases ok
      exact straying_of_alternatives scope branches branchesOk stays
  | .whileLoop condition body, _, _, ok, _ => by
    rw [statement] at ok
    split at ok
    · cases ok
    · cases ok
      rfl
  | .forLoop name items body, _, _, ok, _ => by
    rw [statement] at ok
    split at ok
    · cases ok
    · cases ok
      rfl
  | .define place name parameters body, _, _, ok, _ => by
    rw [statement] at ok
    split at ok
    · cases ok
    · cases ok
      rfl
  | .simple _, _, _, ok, _ => by cases ok; rfl
  | .returnValue _, _, _, ok, _ => by cases ok; rfl
  | .breakLoop, _, _, ok, stays => by cases ok; exact stays
  | .continueLoop, _, _, ok, stays => by cases ok; exact stays
  | .pass, _, _, ok, _ => by cases ok; rfl

theorem straying_of_selected (scope : Scope) :
    (readings : Readings) → {decided : Statement} → {after : Scope} →
      selected scope readings = .ok (decided, after) → Straying.readings readings = false →
        Straying.statement decided = false
  | ⟨.ok host, .ok command, _⟩, _, _, ok, stays => by
    rw [Straying.readings_both, Bool.or_eq_false_iff] at stays
    rw [selected] at ok
    split at ok
    · exact straying_of_statement scope command ok stays.2
    · exact straying_of_statement scope host ok stays.1
  | ⟨.ok host, .error _, _⟩, _, _, ok, stays => straying_of_statement scope host ok stays
  | ⟨.error _, .ok command, _⟩, _, _, ok, stays => straying_of_statement scope command ok stays
  | ⟨.error _, .error _, _⟩, _, _, ok, _ => by cases ok

theorem straying_of_alternatives (scope : Scope) :
    (branches : Alternatives) → {decided : Alternatives} → {after : Scope} →
      alternatives scope branches = .ok (decided, after) →
        Straying.alternatives branches = false → Straying.alternatives decided = false
  | .none, _, _, ok, _ => by cases ok; rfl
  | .otherwise body, _, _, ok, stays => by
    rw [alternatives] at ok
    split at ok
    · cases ok
    · next decided after bodyOk =>
      cases ok
      exact straying_of_block scope body bodyOk stays
  | .branch condition body rest, _, _, ok, stays => by
    obtain ⟨bodyStays, restStays⟩ := Straying.alternatives_branch_eq_false_iff.mp stays
    rw [alternatives] at ok
    split at ok
    · cases ok
    · next decided middle bodyOk =>
      split at ok
      · cases ok
      · next others after restOk =>
        cases ok
        exact Straying.alternatives_branch_eq_false_iff.mpr
          ⟨straying_of_block scope body bodyOk bodyStays,
            straying_of_alternatives middle rest restOk restStays⟩

end

end Decision

theorem straying_of_decideUnit {unit decided : List Statement} {scope : Scope}
    (ok : decideUnit unit scope = .ok decided) (stays : Straying.block unit = false) :
    Straying.block decided = false := by
  unfold decideUnit at ok
  cases found : Decision.block scope unit with rw [found] at ok
  | error error =>
    cases ok
  | ok result =>
    cases ok
    exact Decision.straying_of_block scope unit found stays

end HybridShell
