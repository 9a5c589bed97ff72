import HybridShell.Proofs.Outcomes
import HybridShell.Unit.Decision

/-!
# Decided units stay decided

Deciding a unit leaves no statement open, however deeply it is nested, and a
unit without open statements is decided already: whatever names are bound,
deciding it again changes nothing.

The pass walks through statements, blocks, branches and pairs of readings, so
each fact here is one induction over that family of trees.
-/

namespace HybridShell

namespace OpenReadings

mutual

/-- The open readings of statements that follow each other, in the order of the text. -/
def ofBlock : List Statement → List Readings
  | [] => []
  | first :: rest => ofStatement first ++ ofBlock rest

/-- The open readings of a statement at any depth, in the order of the text. -/
def ofStatement : Statement → List Readings
  | .undecided readings => [readings]
  | .conditional branches => ofAlternatives branches
  | .whileLoop _ body | .forLoop _ _ body | .define _ _ _ body => ofBlock body
  | .simple _ | .returnValue _ | .breakLoop | .continueLoop | .pass => []

def ofAlternatives : Alternatives → List Readings
  | .none => []
  | .otherwise body => ofBlock body
  | .branch _ body rest => ofBlock body ++ ofAlternatives rest

end

end OpenReadings

namespace Decision

theorem block_cons_eq_ok {scope final : Scope} {first : Statement}
    {rest decided : List Statement}
    (ok : block scope (first :: rest) = .ok (decided, final)) :
    ∃ head after others, statement scope first = .ok (head, after) ∧
      block after rest = .ok (others, final) ∧ decided = head :: others := by
  grind [block]

mutual

theorem ofBlock_of_block (scope : Scope) :
    (body : List Statement) → {decided : List Statement} → {after : Scope} →
      block scope body = .ok (decided, after) → OpenReadings.ofBlock decided = []
  | [], _, _, ok => by
    simp only [block, Except.ok.injEq, Prod.mk.injEq] at ok
    rw [← ok.1]
    rfl
  | first :: rest, _, _, ok => by
    obtain ⟨head, after, others, firstOk, restOk, rfl⟩ := block_cons_eq_ok ok
    rw [OpenReadings.ofBlock, ofStatement_of_statement scope first firstOk,
      ofBlock_of_block after rest restOk]
    rfl

theorem ofStatement_of_statement (scope : Scope) :
    (written : Statement) → {decided : Statement} → {after : Scope} →
      statement scope written = .ok (decided, after) → OpenReadings.ofStatement decided = []
  | .undecided readings, _, _, ok => ofStatement_of_selected scope readings ok
  | .conditional branches, _, _, ok => by
    rw [statement] at ok
    split at ok
    · cases ok
    · next decided after branchesOk =>
      cases ok
      exact ofAlternatives_of_alternatives scope branches branchesOk
  | .whileLoop condition body, _, _, ok => by
    rw [statement] at ok
    split at ok
    · cases ok
    · next decided after bodyOk =>
      cases ok
      exact ofBlock_of_block scope body bodyOk
  | .forLoop name items body, _, _, ok => by
    rw [statement] at ok
    split at ok
    · cases ok
    · next decided after bodyOk =>
      cases ok
      exact ofBlock_of_block (scope.bind name) body bodyOk
  | .define place name parameters body, _, _, ok => by
    rw [statement] at ok
    split at ok
    · cases ok
    · next decided after bodyOk =>
      cases ok
      exact ofBlock_of_block ((scope.bind name).bindAll parameters) body bodyOk
  | .simple _, _, _, ok => by cases ok; rfl
  | .returnValue _, _, _, ok => by cases ok; rfl
  | .breakLoop, _, _, ok => by cases ok; rfl
  | .continueLoop, _, _, ok => by cases ok; rfl
  | .pass, _, _, ok => by cases ok; rfl

theorem ofStatement_of_selected (scope : Scope) :
    (readings : Readings) → {decided : Statement} → {after : Scope} →
      selected scope readings = .ok (decided, after) → OpenReadings.ofStatement decided = []
  | ⟨.ok host, .ok command, _⟩, _, _, ok => by
    rw [selected] at ok
    split at ok
    · exact ofStatement_of_statement scope command ok
    · exact ofStatement_of_statement scope host ok
  | ⟨.ok host, .error _, _⟩, _, _, ok => ofStatement_of_statement scope host ok
  | ⟨.error _, .ok command, _⟩, _, _, ok => ofStatement_of_statement scope command ok
  | ⟨.error _, .error _, _⟩, _, _, ok => by cases ok

theorem ofAlternatives_of_alternatives (scope : Scope) :
    (branches : Alternatives) → {decided : Alternatives} → {after : Scope} →
      alternatives scope branches = .ok (decided, after) →
        OpenReadings.ofAlternatives decided = []
  | .none, _, _, ok => by cases ok; rfl
  | .otherwise body, _, _, ok => by
    rw [alternatives] at ok
    split at ok
    · cases ok
    · next decided after bodyOk =>
      cases ok
      exact ofBlock_of_block scope body bodyOk
  | .branch condition body rest, _, _, ok => by
    rw [alternatives] at ok
    split at ok
    · cases ok
    · next decided middle bodyOk =>
      split at ok
      · cases ok
      · next others after restOk =>
        cases ok
        rw [OpenReadings.ofAlternatives, ofBlock_of_block scope body bodyOk,
          ofAlternatives_of_alternatives middle rest restOk]
        rfl

end

mutual

theorem block_of_settled :
    (body : List Statement) → OpenReadings.ofBlock body = [] → (scope : Scope) →
      ∃ after, block scope body = .ok (body, after)
  | [], _, scope => ⟨scope, rfl⟩
  | first :: rest, settled, scope => by
    rw [OpenReadings.ofBlock, List.append_eq_nil_iff] at settled
    obtain ⟨middle, firstOk⟩ := statement_of_settled first settled.1 scope
    obtain ⟨after, restOk⟩ := block_of_settled rest settled.2 middle
    exact ⟨after, by simp only [block, firstOk, restOk]⟩

theorem statement_of_settled :
    (written : Statement) → OpenReadings.ofStatement written = [] → (scope : Scope) →
      ∃ after, statement scope written = .ok (written, after)
  | .undecided readings, settled, _ => by simp [OpenReadings.ofStatement] at settled
  | .conditional branches, settled, scope => by
    obtain ⟨after, ok⟩ := alternatives_of_settled branches settled scope
    exact ⟨after, by rw [statement, ok]⟩
  | .whileLoop condition body, settled, scope => by
    obtain ⟨after, ok⟩ := block_of_settled body settled scope
    exact ⟨after, by rw [statement, ok]⟩
  | .forLoop name items body, settled, scope => by
    obtain ⟨after, ok⟩ := block_of_settled body settled (scope.bind name)
    exact ⟨after, by rw [statement, ok]⟩
  | .define place name parameters body, settled, scope => by
    obtain ⟨inside, ok⟩ :=
      block_of_settled body settled ((scope.bind name).bindAll parameters)
    exact ⟨scope.bind name, by rw [statement, ok]⟩
  | .simple simple, _, scope => ⟨simple.scopeAfter scope, rfl⟩
  | .returnValue _, _, scope => ⟨scope, rfl⟩
  | .breakLoop, _, scope => ⟨scope, rfl⟩
  | .continueLoop, _, scope => ⟨scope, rfl⟩
  | .pass, _, scope => ⟨scope, rfl⟩

theorem alternatives_of_settled :
    (branches : Alternatives) → OpenReadings.ofAlternatives branches = [] →
      (scope : Scope) → ∃ after, alternatives scope branches = .ok (branches, after)
  | .none, _, scope => ⟨scope, rfl⟩
  | .otherwise body, settled, scope => by
    obtain ⟨after, ok⟩ := block_of_settled body settled scope
    exact ⟨after, by rw [alternatives, ok]⟩
  | .branch condition body rest, settled, scope => by
    rw [OpenReadings.ofAlternatives, List.append_eq_nil_iff] at settled
    obtain ⟨middle, bodyOk⟩ := block_of_settled body settled.1 scope
    obtain ⟨after, restOk⟩ := alternatives_of_settled rest settled.2 middle
    exact ⟨after, by simp only [alternatives, bodyOk, restOk]⟩

end

end Decision

theorem decideUnit_eq_ok_iff {unit decided : List Statement} {scope : Scope} :
    decideUnit unit scope = .ok decided ↔
      ∃ after, Decision.block scope unit = .ok (decided, after) := by
  simp [decideUnit, Except.map_eq_ok_iff]

/--
A decided unit has no open statement at any depth, and deciding it again from
any scope gives the same unit.
-/
theorem decideUnit_idempotent {unit decided : List Statement} {scope : Scope}
    (ok : decideUnit unit scope = .ok decided) :
    OpenReadings.ofBlock decided = [] ∧
      ∀ other : Scope, decideUnit decided other = .ok decided := by
  obtain ⟨after, blockOk⟩ := decideUnit_eq_ok_iff.mp ok
  have settled := Decision.ofBlock_of_block scope unit blockOk
  refine ⟨settled, fun other => ?_⟩
  exact decideUnit_eq_ok_iff.mpr (Decision.block_of_settled decided settled other)

/-- A function body with an open statement, whose host reading is open again. -/
def doublyOpen : List Statement :=
  let inner : Readings :=
    ⟨.ok (.simple (.expression (.name "ls"))), .ok .pass, ⟨13, 15, 2⟩⟩
  [.define 0 "f" ["x"] [.undecided ⟨.ok (.undecided inner), .error .unexpectedEnd, inner.span⟩]]

theorem decideUnit_idempotent_doublyOpen :
    decideUnit doublyOpen [] = .ok [.define 0 "f" ["x"] [.pass]] ∧
      OpenReadings.ofBlock [.define 0 "f" ["x"] [.pass]] = [] ∧
        ∀ other : Scope, decideUnit [.define 0 "f" ["x"] [.pass]] other =
          .ok [.define 0 "f" ["x"] [.pass]] :=
  have ok : decideUnit doublyOpen [] = .ok [.define 0 "f" ["x"] [.pass]] := by rfl
  ⟨ok, decideUnit_idempotent ok⟩

end HybridShell
