import HybridShell.Proofs.UnitReadings

/-!
# Deciding by the text alone

The pass over a unit carries a scope from statement to statement.  What that
scope holds at an open statement can be read off the text before it: an
assignment, a loop or a definition binds its name for everything after it,
except that nothing inside a function body counts once the body is closed.

So a unit can be decided without carrying a scope at all.  Each open statement
is replaced by one of its readings, chosen from the text before it, and the
unit fails exactly when some open statement has no reading, with the error of
the first such statement.
-/

namespace HybridShell

open OpenReadings

/-- What a place in the text of a unit means for the names that are bound. -/
inductive TextEvent where
  /-- The target of an assignment, the variable of a loop or the name of a function. -/
  | binds (name : String)
  /-- The start of a function body, with the parameters of the function. -/
  | opens (parameters : List String)
  /-- The end of a function body. -/
  | closes

namespace TextEvent

def introduces (event : TextEvent) (name : String) : Bool :=
  match event with
  | binds bound => bound == name
  | opens parameters => parameters.contains name
  | closes => false

/--
Whether the function bodies that were open before some text are still open
after it, when `depth` bodies more have been opened by then.
-/
def staysOpen : Nat → List TextEvent → Bool
  | _, [] => true
  | depth, binds _ :: later => staysOpen depth later
  | depth, opens _ :: later => staysOpen (depth + 1) later
  | 0, closes :: _ => false
  | depth + 1, closes :: later => staysOpen depth later

/--
Whether a name is bound after some text: an event of the text introduces it,
and no function body that was open at that event has been closed since.
-/
def leavesBound (name : String) : List TextEvent → Bool
  | [] => false
  | event :: later => (event.introduces name && staysOpen 0 later) || leavesBound name later

end TextEvent

namespace TextEvents

def ofSimple : SimpleStatement → List TextEvent
  | .assign (.name name) _ => [.binds name]
  | _ => []

/-- The events of an open statement: those of its host reading, if it has one. -/
def ofReadings : Readings → List TextEvent
  | ⟨.ok (.simple simple), _, _⟩ => ofSimple simple
  | _ => []

mutual

def ofBlock : List Statement → List TextEvent
  | [] => []
  | first :: rest => ofStatement first ++ ofBlock rest

def ofStatement : Statement → List TextEvent
  | .simple simple => ofSimple simple
  | .undecided readings => ofReadings readings
  | .conditional branches => ofAlternatives branches
  | .whileLoop _ body => ofBlock body
  | .forLoop name _ body => .binds name :: ofBlock body
  | .define _ name parameters body =>
    .binds name :: .opens parameters :: ofBlock body ++ [.closes]
  | .returnValue _ | .breakLoop | .continueLoop | .pass => []

def ofAlternatives : Alternatives → List TextEvent
  | .none => []
  | .otherwise body => ofBlock body
  | .branch _ body rest => ofBlock body ++ ofAlternatives rest

end

end TextEvents

namespace Statement

def isAssignment : Statement → Bool
  | simple (.assign _ _) => true
  | _ => false

def startsBound (bound : String → Bool) : Statement → Bool
  | simple (.expression tree) => tree.leftmostName?.all bound
  | _ => false

end Statement

namespace Readings

def isUnreadable : Readings → Bool
  | ⟨.error _, .error _, _⟩ => true
  | _ => false

def hostIsMeant (bound : String → Bool) : Readings → Bool
  | ⟨.error _, _, _⟩ => false
  | ⟨.ok _, .error _, _⟩ => true
  | ⟨.ok host, .ok _, _⟩ => host.isAssignment || host.startsBound bound

def meant (bound : String → Bool) (readings : Readings) : Option Statement :=
  if readings.hostIsMeant bound then readings.host.toOption else readings.command.toOption

end Readings

namespace OpenReadings

section

variable (rule : List TextEvent → Readings → Option Statement)

mutual

/--
Replace each open statement of a block by what a rule makes of it, given the
text before it.  A statement of which the rule makes nothing stays.
-/
def replaceInBlock (before : List TextEvent) : List Statement → List Statement
  | [] => []
  | first :: rest =>
    replaceInStatement before first ::
      replaceInBlock (before ++ TextEvents.ofStatement first) rest

def replaceInStatement (before : List TextEvent) : Statement → Statement
  | .undecided readings => (rule before readings).getD (.undecided readings)
  | .conditional branches => .conditional (replaceInAlternatives before branches)
  | .whileLoop condition body => .whileLoop condition (replaceInBlock before body)
  | .forLoop name items body =>
    .forLoop name items (replaceInBlock (before ++ [.binds name]) body)
  | .define place name parameters body =>
    .define place name parameters
      (replaceInBlock (before ++ [.binds name, .opens parameters]) body)
  | .simple simple => .simple simple
  | .returnValue value => .returnValue value
  | .breakLoop => .breakLoop
  | .continueLoop => .continueLoop
  | .pass => .pass

/-- Replace the open statements in the branches of a conditional. -/
def replaceInAlternatives (before : List TextEvent) : Alternatives → Alternatives
  | .none => .none
  | .otherwise body => .otherwise (replaceInBlock before body)
  | .branch condition body rest =>
    .branch condition (replaceInBlock before body)
      (replaceInAlternatives (before ++ TextEvents.ofBlock body) rest)

end

end

end OpenReadings

def Scope.boundAfter (scope : Scope) (before : List TextEvent) (name : String) : Bool :=
  scope.contains name || TextEvent.leavesBound name before

namespace TextEvent

/-- Text that leaves every function body open that it finds open. -/
def KeepsOpen (events : List TextEvent) : Prop :=
  ∀ depth, staysOpen depth events = true

/-- Text that closes exactly the function bodies that it opens. -/
def IsBalanced (events : List TextEvent) : Prop :=
  ∀ depth later, staysOpen depth (events ++ later) = staysOpen depth later

theorem IsBalanced.nil : IsBalanced [] := fun _ _ => rfl

theorem IsBalanced.binds (name : String) : IsBalanced [.binds name] := fun _ _ => rfl

theorem IsBalanced.append {first second : List TextEvent} (inFirst : IsBalanced first)
    (inSecond : IsBalanced second) : IsBalanced (first ++ second) := by
  intro depth later
  rw [List.append_assoc, inFirst, inSecond]

variable {events : List TextEvent}

theorem IsBalanced.body (balanced : IsBalanced events) (parameters : List String) :
    IsBalanced (.opens parameters :: events ++ [.closes]) := by
  intro depth later
  simp only [List.cons_append, List.append_assoc, staysOpen]
  rw [balanced]
  rfl

theorem IsBalanced.keepsOpen (balanced : IsBalanced events) : KeepsOpen events := by
  intro depth
  have whole := balanced depth []
  rwa [List.append_nil, staysOpen] at whole

theorem staysOpen_append (keeps : KeepsOpen events) (depth : Nat) (before : List TextEvent) :
    staysOpen depth (before ++ events) = staysOpen depth before := by
  induction before generalizing depth with
  | nil => exact keeps depth
  | cons event before ih =>
    cases event with
    | binds name => exact ih depth
    | opens parameters => exact ih (depth + 1)
    | closes =>
      cases depth with
      | zero => rfl
      | succ depth => exact ih depth

theorem leavesBound_append (keeps : KeepsOpen events) (name : String) (before : List TextEvent) :
    leavesBound name (before ++ events) =
      (leavesBound name before || leavesBound name events) := by
  induction before with
  | nil => rfl
  | cons event before ih =>
    simp only [List.cons_append, leavesBound, staysOpen_append keeps, ih, Bool.or_assoc]

end TextEvent

namespace TextEvents

open TextEvent

theorem isBalanced_ofSimple (simple : SimpleStatement) : IsBalanced (ofSimple simple) := by
  unfold ofSimple
  split
  · exact .binds _
  · exact .nil

theorem isBalanced_ofReadings (readings : Readings) : IsBalanced (ofReadings readings) := by
  unfold ofReadings
  split
  · exact isBalanced_ofSimple _
  · exact .nil

mutual

theorem isBalanced_ofBlock : (body : List Statement) → IsBalanced (ofBlock body)
  | [] => .nil
  | first :: rest => (isBalanced_ofStatement first).append (isBalanced_ofBlock rest)

theorem isBalanced_ofStatement : (written : Statement) → IsBalanced (ofStatement written)
  | .simple simple => isBalanced_ofSimple simple
  | .undecided readings => isBalanced_ofReadings readings
  | .conditional branches => isBalanced_ofAlternatives branches
  | .whileLoop _ body => isBalanced_ofBlock body
  | .forLoop name _ body => (IsBalanced.binds name).append (isBalanced_ofBlock body)
  | .define _ name parameters body =>
    (IsBalanced.binds name).append ((isBalanced_ofBlock body).body parameters)
  | .returnValue _ | .breakLoop | .continueLoop | .pass => .nil

theorem isBalanced_ofAlternatives :
    (branches : Alternatives) → IsBalanced (ofAlternatives branches)
  | .none => .nil
  | .otherwise body => isBalanced_ofBlock body
  | .branch _ body rest => (isBalanced_ofBlock body).append (isBalanced_ofAlternatives rest)

end

variable {later : List TextEvent}

theorem leavesBound_ofSimple_append (name : String) (simple : SimpleStatement)
    (closed : staysOpen 0 later = false) :
    leavesBound name (ofSimple simple ++ later) = leavesBound name later := by
  unfold ofSimple
  split
  · simp [leavesBound, closed]
  · rfl

theorem leavesBound_ofReadings_append (name : String) (readings : Readings)
    (closed : staysOpen 0 later = false) :
    leavesBound name (ofReadings readings ++ later) = leavesBound name later := by
  unfold ofReadings
  split
  · exact leavesBound_ofSimple_append name _ closed
  · rfl

mutual

/-- Nothing in a block counts once the function body around it is closed. -/
theorem leavesBound_ofBlock_append (name : String) :
    (body : List Statement) → {later : List TextEvent} → staysOpen 0 later = false →
      leavesBound name (ofBlock body ++ later) = leavesBound name later
  | [], _, _ => rfl
  | first :: rest, later, closed => by
    have restClosed : staysOpen 0 (ofBlock rest ++ later) = false := by
      rw [isBalanced_ofBlock, closed]
    rw [ofBlock, List.append_assoc, leavesBound_ofStatement_append name first restClosed,
      leavesBound_ofBlock_append name rest closed]

theorem leavesBound_ofStatement_append (name : String) :
    (written : Statement) → {later : List TextEvent} → staysOpen 0 later = false →
      leavesBound name (ofStatement written ++ later) = leavesBound name later
  | .simple simple, _, closed => leavesBound_ofSimple_append name simple closed
  | .undecided readings, _, closed => leavesBound_ofReadings_append name readings closed
  | .conditional branches, _, closed => leavesBound_ofAlternatives_append name branches closed
  | .whileLoop _ body, _, closed => leavesBound_ofBlock_append name body closed
  | .forLoop bound _ body, later, closed => by
    simp only [ofStatement, List.cons_append, leavesBound, isBalanced_ofBlock body 0 later,
      closed, leavesBound_ofBlock_append name body closed, Bool.and_false, Bool.false_or]
  | .define _ bound parameters body, later, closed => by
    -- `later` hides the name; the end of the body hides parameters and body.
    have nameHidden : staysOpen (0 + 1) (ofBlock body ++ closes :: later) = false := by
      rw [isBalanced_ofBlock]
      exact closed
    have bodyClosed : staysOpen 0 (closes :: later) = false := rfl
    have parametersHidden : staysOpen 0 (ofBlock body ++ closes :: later) = false := by
      rw [isBalanced_ofBlock, bodyClosed]
    simp only [ofStatement, List.cons_append, List.append_assoc, List.nil_append, leavesBound,
      staysOpen, nameHidden, parametersHidden, leavesBound_ofBlock_append name body bodyClosed,
      introduces, Bool.and_false, Bool.false_and, Bool.false_or]
  | .returnValue _, _, _ | .breakLoop, _, _ | .continueLoop, _, _ | .pass, _, _ => rfl

theorem leavesBound_ofAlternatives_append (name : String) :
    (branches : Alternatives) → {later : List TextEvent} → staysOpen 0 later = false →
      leavesBound name (ofAlternatives branches ++ later) = leavesBound name later
  | .none, _, _ => rfl
  | .otherwise body, _, closed => leavesBound_ofBlock_append name body closed
  | .branch _ body rest, later, closed => by
    have restClosed : staysOpen 0 (ofAlternatives rest ++ later) = false := by
      rw [isBalanced_ofAlternatives, closed]
    rw [ofAlternatives, List.append_assoc, leavesBound_ofBlock_append name body restClosed,
      leavesBound_ofAlternatives_append name rest closed]

end

theorem leavesBound_define (name bound : String) (place : Nat) (parameters : List String)
    (body : List Statement) :
    leavesBound name (ofStatement (.define place bound parameters body)) = (bound == name) := by
  have hidden : leavesBound name (.opens parameters :: ofBlock body ++ [.closes]) = false := by
    have bodyHidden : leavesBound name (ofBlock body ++ [.closes]) = false :=
      leavesBound_ofBlock_append name body rfl
    have closed : staysOpen 0 (ofBlock body ++ [.closes]) = false := by
      rw [isBalanced_ofBlock]
      rfl
    rw [List.cons_append, leavesBound, bodyHidden, closed]
    simp
  have keeps : KeepsOpen (.opens parameters :: ofBlock body ++ [.closes]) :=
    ((isBalanced_ofBlock body).body parameters).keepsOpen
  rw [ofStatement, List.cons_append, leavesBound, hidden, keeps 0]
  simp [introduces]

end TextEvents

namespace Scope

open TextEvent

/-- A scope holds the names that are bound after some text that starts in another scope. -/
def Agrees (scope start : Scope) (before : List TextEvent) : Prop :=
  ∀ name, scope.contains name = start.boundAfter before name

theorem Agrees.start (scope : Scope) : Agrees scope scope [] := by
  intro name
  simp [boundAfter, leavesBound]

variable {scope start : Scope} {before : List TextEvent}

/-- Names that are added to a scope agree with text that binds just these names. -/
theorem Agrees.extend {after : Scope} {events : List TextEvent} (agrees : Agrees scope start before)
    (keeps : KeepsOpen events)
    (added : ∀ name, after.contains name = (leavesBound name events || scope.contains name)) :
    Agrees after start (before ++ events) := by
  intro name
  rw [added, agrees name, boundAfter, boundAfter, leavesBound_append keeps]
  cases leavesBound name events <;> simp

theorem contains_bind (scope : Scope) (bound name : String) :
    (scope.bind bound).contains name = (bound == name || scope.contains name) := by
  rw [Scope.bind, List.contains_cons, Bool.beq_comm]

theorem contains_bindAll (scope : Scope) (names : List String) (name : String) :
    (scope.bindAll names).contains name = (names.contains name || scope.contains name) := by
  simp [bindAll]

theorem Agrees.bind (agrees : Agrees scope start before) (bound : String) :
    Agrees (scope.bind bound) start (before ++ [.binds bound]) := by
  refine agrees.extend (IsBalanced.binds bound).keepsOpen fun name => ?_
  rw [contains_bind]
  simp [leavesBound, introduces, staysOpen]

theorem Agrees.simple {scope start : Scope} {before : List TextEvent}
    (agrees : Agrees scope start before) (simple : SimpleStatement) :
    Agrees (simple.scopeAfter scope) start (before ++ TextEvents.ofSimple simple) := by
  cases simple with
  | expression tree => simpa [SimpleStatement.scopeAfter, TextEvents.ofSimple] using agrees
  | assign target value =>
    cases target with
    | name bound => exact agrees.bind bound
    | env key => simpa [SimpleStatement.scopeAfter, TextEvents.ofSimple] using agrees
    | index base position => simpa [SimpleStatement.scopeAfter, TextEvents.ofSimple] using agrees

theorem Agrees.inBody (agrees : Agrees scope start before) (bound : String)
    (parameters : List String) :
    Agrees ((scope.bind bound).bindAll parameters) start
      (before ++ [.binds bound, .opens parameters]) := by
  refine agrees.extend (fun _ => rfl) fun name => ?_
  rw [contains_bindAll, contains_bind, Bool.or_left_comm]
  simp [leavesBound, introduces, staysOpen, Bool.or_assoc]

theorem Agrees.afterDefine (agrees : Agrees scope start before) (place : Nat) (bound : String)
    (parameters : List String) (body : List Statement) :
    Agrees (scope.bind bound) start
      (before ++ TextEvents.ofStatement (.define place bound parameters body)) := by
  refine agrees.extend (TextEvents.isBalanced_ofStatement _).keepsOpen fun name => ?_
  rw [contains_bind, TextEvents.leavesBound_define]

end Scope

namespace Decision

def textualRule (start : Scope) (before : List TextEvent) (readings : Readings) :
    Option Statement :=
  readings.meant (start.boundAfter before)

/--
What deciding something in a unit that starts in a scope comes to.  It fails
with the host error of the first of its open statements that is unreadable.
If there is none, its open statements are replaced as the rule says, and the
scope afterwards agrees with the text up to then.
-/
def ComesTo {α : Type} (start : Scope) (found : List Readings) (replaced : α)
    (text : List TextEvent) (result : Except ParseError (α × Scope)) : Prop :=
  (∃ readings error, found.find? Readings.isUnreadable = some readings ∧
      readings.host = .error error ∧ result = .error error) ∨
    (found.find? Readings.isUnreadable = none ∧
      ∃ after, result = .ok (replaced, after) ∧ Scope.Agrees after start text)

variable {start scope : Scope} {text before : List TextEvent}

variable {α : Type} {readings : Readings} {found : List Readings}

theorem ComesTo.unchanged {after : Scope} {replaced : α} (agrees : after.Agrees start text) :
    ComesTo start [] replaced text (.ok (replaced, after)) :=
  .inr ⟨rfl, after, rfl, agrees⟩

theorem ComesTo.replaced (readable : readings.isUnreadable = false) {simple : SimpleStatement}
    (chosen : textualRule start before readings = some (.simple simple))
    (agrees : (simple.scopeAfter scope).Agrees start (before ++ TextEvents.ofReadings readings)) :
    ComesTo start [readings] ((textualRule start before readings).getD (.undecided readings))
      (before ++ TextEvents.ofReadings readings) (statement scope (.simple simple)) := by
  refine .inr ⟨by simp [readable], simple.scopeAfter scope, ?_, agrees⟩
  rw [chosen]
  rfl

theorem startsUnbound_eq_not_startsBound (agrees : scope.Agrees start before) (tree : Expr) :
    (Statement.simple (.expression tree)).startsUnbound scope =
      !(Statement.simple (.expression tree)).startsBound (start.boundAfter before) := by
  simp only [Statement.startsUnbound, Statement.startsBound]
  cases tree.leftmostName? with
  | none => rfl
  | some name => simp only [Option.any_some, Option.all_some, agrees name]

theorem selected_comesTo (agrees : scope.Agrees start before) (readings : Readings)
    (plain : readings.IsPlain) :
    ComesTo start [readings] ((textualRule start before readings).getD (.undecided readings))
      (before ++ TextEvents.ofReadings readings) (selected scope readings) := by
  obtain ⟨host, command, span⟩ := readings
  cases host with
  | error hostError =>
    cases command with
    | error commandError => exact .inl ⟨_, hostError, rfl, rfl, rfl⟩
    | ok command =>
      obtain ⟨chain, rfl⟩ := plain.command rfl
      exact .replaced rfl rfl (agrees.simple (.commandLine chain))
  | ok host =>
    obtain ⟨simple, rfl⟩ := plain.host rfl
    cases command with
    | error commandError => exact .replaced rfl rfl (agrees.simple simple)
    | ok command =>
      obtain ⟨chain, rfl⟩ := plain.command rfl
      rw [selected]
      cases simple with
      | assign target value =>
        exact .replaced rfl rfl (agrees.simple (.assign target value))
      | expression tree =>
        rw [startsUnbound_eq_not_startsBound agrees]
        cases bound : (Statement.simple (.expression tree)).startsBound
            (start.boundAfter before) with
        | true =>
          refine .replaced rfl ?_ (agrees.simple (.expression tree))
          simp [textualRule, Readings.meant, Readings.hostIsMeant, bound, Except.toOption]
        | false =>
          refine .replaced rfl ?_ (agrees.simple (.commandLine chain))
          simp [textualRule, Readings.meant, Readings.hostIsMeant, bound, Except.toOption,
            Statement.isAssignment]

theorem ComesTo.build {β : Type} {inner : α} {outer : β} {part : Except ParseError (α × Scope)}
    {whole : Except ParseError (β × Scope)} (comes : ComesTo start found inner text part)
    (fails : ∀ {error}, part = .error error → whole = .error error)
    (builds : ∀ {after}, part = .ok (inner, after) → whole = .ok (outer, after)) :
    ComesTo start found outer text whole := by
  rcases comes with ⟨readings, error, first, failed, result⟩ | ⟨none, after, result, agrees⟩
  · exact .inl ⟨readings, error, first, failed, fails result⟩
  · exact .inr ⟨none, after, builds result, agrees⟩

/-- Two parts in a row come to what the first comes to, and then to what the second does. -/
theorem ComesTo.andThen {β γ : Type} {inner : α} {outer : β} {part : Except ParseError (α × Scope)}
    {rest : Scope → Except ParseError (β × Scope)} {whole : Except ParseError (γ × Scope)}
    {later : List Readings} {final : List TextEvent} {join : β → γ}
    (comes : ComesTo start found inner text part)
    (goesOn : ∀ {scope}, scope.Agrees start text → ComesTo start later outer final (rest scope))
    (fails : ∀ {error}, part = .error error → whole = .error error)
    (builds : ∀ {scope}, part = .ok (inner, scope) → whole = (rest scope).map (Prod.map join id)) :
    ComesTo start (found ++ later) (join outer) final whole := by
  rcases comes with ⟨readings, error, first, failed, result⟩ | ⟨none, scope, result, agrees⟩
  · refine .inl ⟨readings, error, ?_, failed, fails result⟩
    rw [List.find?_append, first, Option.some_or]
  · rw [ComesTo, List.find?_append, none, Option.none_or, builds result]
    exact (goesOn agrees).build (fun result => by rw [result]; rfl) fun result => by rw [result]; rfl

mutual

theorem block_comesTo (start : Scope) :
    (body : List Statement) → (∀ readings ∈ ofBlock body, readings.IsPlain) →
      {scope : Scope} → {before : List TextEvent} → scope.Agrees start before →
        ComesTo start (ofBlock body)
          (replaceInBlock (textualRule start) before body)
          (before ++ TextEvents.ofBlock body) (block scope body)
  | [], _, scope, before, agrees => by
    rw [TextEvents.ofBlock, List.append_nil]
    exact .unchanged agrees
  | first :: rest, plain, scope, before, agrees => by
    rw [ofBlock, List.forall_mem_append] at plain
    rw [ofBlock, replaceInBlock, TextEvents.ofBlock,
      ← List.append_assoc]
    refine (statement_comesTo start first plain.1 agrees).andThen
      (block_comesTo start rest plain.2) (fun result => ?_) fun {middle} result => ?_
    · rw [block, result]
    · simp only [block, result]
      cases block middle rest <;> rfl

theorem statement_comesTo (start : Scope) :
    (written : Statement) → (∀ readings ∈ ofStatement written, readings.IsPlain) →
      {scope : Scope} → {before : List TextEvent} → scope.Agrees start before →
        ComesTo start (ofStatement written)
          (replaceInStatement (textualRule start) before written)
          (before ++ TextEvents.ofStatement written) (statement scope written)
  | .simple simple, _, _, _, agrees => .unchanged (agrees.simple simple)
  | .undecided readings, plain, _, _, agrees =>
    selected_comesTo agrees readings (plain readings (List.mem_singleton.mpr rfl))
  | .conditional branches, plain, _, _, agrees =>
    (alternatives_comesTo start branches plain agrees).build
      (fun result => by rw [statement, result]) (fun result => by rw [statement, result]; rfl)
  | .whileLoop condition body, plain, _, _, agrees =>
    (block_comesTo start body plain agrees).build
      (fun result => by rw [statement, result]) (fun result => by rw [statement, result]; rfl)
  | .forLoop name items body, plain, _, _, agrees => by
    rw [TextEvents.ofStatement, ← List.singleton_append, ← List.append_assoc]
    exact (block_comesTo start body plain (agrees.bind name)).build
      (fun result => by rw [statement, result]) (fun result => by rw [statement, result]; rfl)
  | .define place name parameters body, plain, scope, before, agrees => by
    rw [statement]
    rcases block_comesTo start body plain (agrees.inBody name parameters) with
      ⟨readings, error, found, failed, result⟩ | ⟨none, after, result, _⟩
    · exact .inl ⟨readings, error, found, failed, by rw [result]⟩
    · exact .inr ⟨none, scope.bind name, by rw [result]; rfl,
        agrees.afterDefine place name parameters body⟩
  | .returnValue _, _, _, _, agrees | .breakLoop, _, _, _, agrees
  | .continueLoop, _, _, _, agrees | .pass, _, _, _, agrees => by
    rw [TextEvents.ofStatement, List.append_nil]
    exact .unchanged agrees

theorem alternatives_comesTo (start : Scope) :
    (branches : Alternatives) →
      (∀ readings ∈ ofAlternatives branches, readings.IsPlain) →
        {scope : Scope} → {before : List TextEvent} → scope.Agrees start before →
          ComesTo start (ofAlternatives branches)
            (replaceInAlternatives (textualRule start) before branches)
            (before ++ TextEvents.ofAlternatives branches) (alternatives scope branches)
  | .none, _, _, before, agrees => by
    rw [TextEvents.ofAlternatives, List.append_nil]
    exact .unchanged agrees
  | .otherwise body, plain, _, _, agrees =>
    (block_comesTo start body plain agrees).build (fun result => by rw [alternatives, result])
      (fun result => by rw [alternatives, result]; rfl)
  | .branch condition body rest, plain, scope, before, agrees => by
    rw [ofAlternatives, List.forall_mem_append] at plain
    rw [ofAlternatives, replaceInAlternatives,
      TextEvents.ofAlternatives, ← List.append_assoc]
    refine (block_comesTo start body plain.1 agrees).andThen
      (alternatives_comesTo start rest plain.2) (fun result => ?_) fun {middle} result => ?_
    · rw [alternatives, result]
    · simp only [alternatives, result]
      cases alternatives middle rest <;> rfl

end

theorem unit_comesTo {source : String} {unit : List Statement}
    (read : parseUnit source = .ok unit) (scope : Scope) :
    ComesTo scope (ofBlock unit)
      (replaceInBlock (textualRule scope) [] unit) (TextEvents.ofBlock unit)
      (block scope unit) :=
  block_comesTo scope unit (isPlain_of_parseUnit read) (.start scope)

end Decision

/--
Deciding a unit that was read from a text fails exactly when some open
statement in it, at any depth, has no valid reading, and then with the host
error of the first such statement.  Otherwise it replaces each open statement
by the reading that is meant, given the names that are bound by the starting
scope and by the text before the statement.
-/
theorem decideUnit_by_text {source : String} {unit : List Statement}
    (read : parseUnit source = .ok unit) (scope : Scope) :
    ((∃ error, decideUnit unit scope = .error error) ↔
      ∃ readings ∈ OpenReadings.ofBlock unit, readings.isUnreadable = true) ∧
    (∀ error, decideUnit unit scope = .error error →
      ∃ readings, (OpenReadings.ofBlock unit).find? Readings.isUnreadable = some readings ∧
        readings.host = .error error) ∧
    ((∀ readings ∈ OpenReadings.ofBlock unit, readings.isUnreadable = false) →
      decideUnit unit scope = .ok (OpenReadings.replaceInBlock
        (fun before readings => readings.meant (scope.boundAfter before)) [] unit)) := by
  rcases Decision.unit_comesTo read scope with
    ⟨readings, error, first, failed, result⟩ | ⟨none, after, result, _⟩
  · have decided : decideUnit unit scope = .error error := by rw [decideUnit, result]; rfl
    have member := List.mem_of_find?_eq_some first
    have unreadable : readings.isUnreadable = true := List.find?_some first
    refine ⟨⟨fun _ => ⟨readings, member, unreadable⟩, fun _ => ⟨error, decided⟩⟩, ?_, ?_⟩
    · intro other same
      rw [decided] at same
      cases same
      exact ⟨readings, first, failed⟩
    · intro readable
      rw [readable readings member] at unreadable
      cases unreadable
  · have decided : decideUnit unit scope =
        .ok (OpenReadings.replaceInBlock (Decision.textualRule scope) [] unit) := by
      rw [decideUnit, result]
      rfl
    have readable := List.find?_eq_none.mp none
    refine ⟨⟨?_, ?_⟩, ?_, fun _ => decided⟩
    · rintro ⟨error, failed⟩
      rw [decided] at failed
      cases failed
    · rintro ⟨readings, member, unreadable⟩
      exact absurd unreadable (readable readings member)
    · intro error failed
      rw [decided] at failed
      cases failed

/-- A parameter that is bound in the body of its function and not after it. -/
def shadowedParameter : String :=
  "def f(ls) \x7b\n ls - 1\n\x7d\nls - 1"

theorem decideUnit_by_text_shadowedParameter :
    ∃ unit, parseUnit shadowedParameter = .ok unit ∧
      (OpenReadings.ofBlock unit).length = 2 ∧
      (∀ readings ∈ OpenReadings.ofBlock unit, readings.isUnreadable = false) ∧
      decideUnit unit [] = .ok (OpenReadings.replaceInBlock
        (fun before readings => readings.meant (Scope.boundAfter [] before)) [] unit) := by
  have facts : (parseUnit shadowedParameter).toOption.any (fun unit =>
      (OpenReadings.ofBlock unit).length == 2 &&
        (OpenReadings.ofBlock unit).all fun readings => !readings.isUnreadable) = true := by
    decide +kernel
  cases read : parseUnit shadowedParameter with
  | error error => simp [read, Except.toOption] at facts
  | ok unit =>
    simp only [read, Except.toOption, Option.any_some, Bool.and_eq_true, beq_iff_eq,
      List.all_eq_true, Bool.not_eq_true'] at facts
    exact ⟨unit, rfl, facts.1, facts.2, (decideUnit_by_text read []).2.2 facts.2⟩

end HybridShell
