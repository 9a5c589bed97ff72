import HybridShell.Proofs.NestedReaders

/-!
# Reading units by places

The reader of statements with an index into the tokens of a unit for its place.  A simple statement
takes the tokens up to its end, which it finds by an index too, and cuts its text from the source
by the places of the first and the last of them.
-/

namespace HybridShell

namespace Strict

open UnitReader (isSeparator endsStatement bracketChange)

section Reader

variable (source : List Char) (all : List Token)

/-- Pass tokens as long as they are of the given kind. -/
def skip (test : Token → Bool) : Nat → Strict Unit
  | 0 => demand none
  | steps + 1 => do
    if (← peek all all.length).any test then do
      move 1
      skip test steps
    else pure ()

def statementEnd (depth : Int) (index : Nat) : Nat → Option Nat
  | 0 => none
  | steps + 1 =>
    if index < all.length then do
      let token ← all[index]?
      if endsStatement depth token then some index
      else statementEnd (depth + bracketChange token.kind) (index + 1) steps
    else some index

/-- A value, if its reader has come to an index. -/
def ended {α : Type} (stop : Nat) (value : α) : Strict α := do
  if (← get) = stop then pure value else unexpected all stop

/-- Host code up to an index. -/
def hostReading (stop : Nat) : Strict SimpleStatement := do
  let line ← lineAt all
  let left ← expression all readChain stop
  let statement ←
    if ← eat all stop (·.isPunct .assign) then
      match UnitReader.target? left with
      | some target => do
        let value ← expression all readChain stop
        pure (SimpleStatement.assign target value)
      | none => fail (.malformed line .cannotAssign)
    else pure (SimpleStatement.expression left)
  ended all stop statement

def commandReading (span : Span) : Option (Except ParseError Chain) :=
  (Text.between? source span.start span.stop).bind fun text => relocated span.line (readChain text)

def simpleStatement : Strict Statement := do
  let start ← get
  let stop ← demand (statementEnd all 0 start (all.length + 1))
  let first ← demand all[start]?
  let last ← demand ((minus? stop 1).bind (all[·]?))
  let span := { first.span with stop := last.span.stop }
  let host ← demand (outcome (hostReading all stop) start)
  set stop
  let command ← demand (commandReading source span)
  pure (.undecided
    ⟨host.map .simple, command.map fun chain => .simple (.commandLine chain), span⟩)

def parameters : Nat → Strict (List String)
  | 0 => demand none
  | steps + 1 => do
    if (← peek all all.length).any (·.kind.isPunct .rparen) then do
      expectPunct all all.length .rparen
      pure []
    else do
      let name ← expectName all all.length
      if ← eat all all.length (·.isPunct .comma) then do
        let others ← parameters steps
        pure (name :: others)
      else do
        expectPunct all all.length .rparen
        pure [name]

def atStatementEnd : Strict Bool := do
  let next ← peek all all.length
  pure (next.all fun token => isSeparator token || token.kind.isPunct .rbrace)

def keywordAlone (statement : Statement) : Strict Statement := do
  move 1
  if ← atStatementEnd all then pure statement else unexpected all all.length

mutual

def statements (inBlock : Bool) : Nat → Strict (List Statement)
  | 0 => demand none
  | steps + 1 => do
    skip all isSeparator (all.length + 1)
    match ← peek all all.length with
    | none => if inBlock then fail .unexpectedEnd else pure []
    | some token =>
      if token.kind.isPunct .rbrace then
        if inBlock then pure [] else unexpected all all.length
      else do
        let first ← statement token steps
        let others ← statements inBlock steps
        pure (first :: others)

def block : Nat → Strict (List Statement)
  | 0 => demand none
  | steps + 1 => do
    expectPunct all all.length .lbrace
    let body ← statements true steps
    expectPunct all all.length .rbrace
    pure body

def guarded : Nat → Strict (Expr × List Statement)
  | 0 => demand none
  | steps + 1 => do
    let condition ← expression all readChain all.length
    let body ← block steps
    pure (condition, body)

def alternatives : Nat → Strict Alternatives
  | 0 => demand none
  | steps + 1 => do
    let start ← get
    skip all (·.kind.isNewline) (all.length + 1)
    if ← eat all all.length (·.isWord "elif") then do
      let (condition, body) ← guarded steps
      let rest ← alternatives steps
      pure (.branch condition body rest)
    else if ← eat all all.length (·.isWord "else") then do
      let body ← block steps
      pure (.otherwise body)
    else do
      set start
      pure .none

def statement (first : Token) : Nat → Strict Statement
  | 0 => demand none
  | steps + 1 =>
    match first.kind with
    | .name "if" => do
      move 1
      let (condition, body) ← guarded steps
      let others ← alternatives steps
      pure (.conditional (.branch condition body others))
    | .name "while" => do
      move 1
      let (condition, body) ← guarded steps
      pure (.whileLoop condition body)
    | .name "for" => do
      move 1
      let name ← expectName all all.length
      if ← eat all all.length (·.isWord "in") then do
        let (items, body) ← guarded steps
        pure (.forLoop name items body)
      else unexpected all all.length
    | .name "def" => do
      move 1
      let name ← expectName all all.length
      expectPunct all all.length .lparen
      let names ← parameters all (all.length + 1)
      let body ← block steps
      pure (.define first.span.start name names body)
    | .name "return" => do
      move 1
      if ← atStatementEnd all then pure (.returnValue none)
      else do
        let value ← expression all readChain all.length
        pure (.returnValue (some value))
    | .name "break" => keywordAlone all .breakLoop
    | .name "continue" => keywordAlone all .continueLoop
    | .name "pass" => keywordAlone all .pass
    | _ => simpleStatement source all

end

end Reader

/-! ### Statements at places -/

section Simple

variable {α : Type} {source : List Char} {all tokens rest others : List Token}
  {limit place stop : Nat} {readers : BodyReaders} {first : Token}

theorem get_bind (later : Nat → Strict α) : (get >>= later) place = later place place :=
  rfl

theorem set_bind (later : PUnit → Strict α) : (set stop >>= later) place = later () stop :=
  rfl

variable {count : Nat}

theorem Left.take (left : Left all limit place tokens) (within : count ≤ tokens.length) :
    Left all (place + count) place (tokens.take count) where
  within := by
    have := left.within
    have := left.count
    omega
  eq_drop := by grind [left.eq_drop, List.take_drop]
  count := by rw [List.length_take, Nat.min_eq_left within]

theorem Left.drop (left : Left all limit place tokens) (within : count ≤ tokens.length) :
    Left all limit (place + count) (tokens.drop count) where
  within := left.within
  eq_drop := by rw [← List.drop_drop, ← left.eq_drop]
  count := by
    have := left.count
    grind

theorem Left.getLast (left : Left all limit place (first :: others)) :
    (minus? limit 1).bind (all[·]?) = some ((first :: others).getLast (List.cons_ne_nil _ _)) := by
  have count := left.count
  rw [List.length_cons] at count
  have found : ((all.take limit).drop place)[others.length]? =
      some ((first :: others).getLast (List.cons_ne_nil _ _)) := by
    rw [← left.eq_drop, ← List.getLast?_eq_some_getLast, List.getLast?_eq_getElem?,
      List.length_cons, Nat.add_sub_cancel]
  rw [List.getElem?_drop, List.getElem?_take_of_lt (by omega)] at found
  rw [minus?_of_le (by omega), Option.bind_some, ← found]
  congr 1
  omega

theorem Left.skip (left : Left all all.length place tokens) (test : Token → Bool)
    (enough : tokens.length < count) :
    ∃ next, skip all test count place = some (.ok ((), next)) ∧
      Left all all.length next (tokens.dropWhile test) := by
  induction count generalizing place tokens with
  | zero => cases enough
  | succ count ih =>
    rw [Strict.skip, left.peek_bind]
    cases tokens with
    | nil => exact ⟨place, rfl, left⟩
    | cons token rest =>
      rw [List.dropWhile_cons]
      cases holds : test token with
      | false =>
        refine ⟨place, ?_, left⟩
        simp only [List.head?_cons, Option.any_some, holds]
        rfl
      | true =>
        simp only [List.head?_cons, Option.any_some, holds, if_true]
        exact ih left.next (Nat.lt_of_succ_lt_succ enough)

theorem Left.statementEnd (left : Left all all.length place tokens) (depth : Int)
    (enough : tokens.length < count) :
    statementEnd all depth place count =
      some (place + UnitReader.statementLength depth tokens) := by
  have whole := left.count
  induction count generalizing place depth tokens with
  | zero => cases enough
  | succ count ih =>
    cases tokens with
    | nil =>
      rw [Strict.statementEnd, if_neg (by simp at whole; omega)]
      rfl
    | cons token rest =>
      rw [List.length_cons] at whole
      rw [Strict.statementEnd, if_pos (by omega), left.getElem?_eq, UnitReader.statementLength]
      change (if endsStatement depth token then _ else _) = _
      split
      · rfl
      · rw [ih left.next _ (Nat.lt_of_succ_lt_succ enough) left.next.count, Nat.add_assoc,
          Nat.add_comm 1]

theorem Left.ended {value : α} (left : Left all stop place rest) :
    outcome (ended all stop value) place =
      some (if rest = [] then .ok value else .error (HybridShell.unexpected rest)) := by
  have count := left.count
  change Option.map _ ((if place = stop then pure value else Strict.unexpected all stop) place) = _
  cases rest with
  | nil =>
    rw [if_pos (by exact count)]
    rfl
  | cons token rest =>
    rw [if_neg (by simp at count; omega), left.unexpected_eq]
    rfl

theorem Left.hostReading (left : Left all stop place (first :: others))
    (known : Known all readChain readers) :
    outcome (hostReading all stop) place =
      some (UnitReader.hostReading readers (first :: others)) := by
  rw [outcome, Strict.hostReading, lineAt_bind, left.lineOf_eq, UnitReader.hostReading]
  change _ = some (Except.bind (ExpressionReader.expression readers (first :: others)) _)
  obtain ⟨error, ran, failed⟩ | ⟨value, place, rest, ran, read, left, _⟩ := left.expression known
  · rw [bind_error ran, failed]
    rfl
  · rw [bind_ok ran, read, left.eat_bind]
    cases rest with
    | nil => exact left.ended
    | cons token rest =>
      simp only [Except.bind, startsWithPunct, List.head?_cons, Option.any_some]
      by_cases assigns : token.kind.isPunct .assign = true
      · simp only [assigns, if_true, List.drop_succ_cons, List.drop_zero]
        cases UnitReader.target? value with
        | none => rfl
        | some target =>
          simp only []
          obtain ⟨error, ran, failed⟩ | ⟨value, place, rest, ran, read, left, _⟩ :=
            left.next.expression known
          · rw [bind_error ran, failed]
            rfl
          · rw [bind_ok ran, read]
            cases rest <;> exact left.ended
      · simp only [assigns]
        exact left.ended

/-- The text that tokens cover is cut from the source between characters. -/
theorem Left.between? (left : Left all limit place (first :: others))
    (lexed : Lexer.tokensFrom .start 0 source = .ok all) :
    Text.between? source (UnitReader.spanOf first others).start
        (UnitReader.spanOf first others).stop =
      some (UnitReader.textOf source first others) := by
  obtain ⟨final, reaches⟩ := Lexer.exists_reaches_of_ok lexed
  have within : (first :: others).Sublist all := by
    rw [left.eq_drop]
    exact (List.drop_sublist _ _).trans (List.take_sublist _ _)
  obtain ⟨before, middle, after, rfl, start, stop, _⟩ := reaches.exists_stretch within
  change Text.between? _ first.span.start _ = some (Text.slice _ first.span.start _)
  rw [start, stop, Text.slice_append, Text.byteSize_append, Text.between?_append]

theorem Left.commandReading (left : Left all limit place (first :: others))
    (lexed : Lexer.tokensFrom .start 0 source = .ok all) (known : Known all readChain readers) :
    commandReading source (UnitReader.spanOf first others) =
      some ((parseChain (String.ofList (UnitReader.textOf source first others))).mapError
        (·.relocate first.span.line)) := by
  rw [Strict.commandReading, left.between? lexed, Option.bind_some, readChain_eq]
  exact relocated_some (known.line_pos first left.mem) _

theorem statementLength_le (depth : Int) (tokens : List Token) :
    UnitReader.statementLength depth tokens ≤ tokens.length := by
  fun_induction UnitReader.statementLength depth tokens with
  | case1 | case2 => exact Nat.zero_le _
  | case3 depth token rest goesOn ih => exact Nat.succ_le_succ ih

/-- A statement that starts with no separator takes a token, and both of its readings are found. -/
theorem Left.simpleStatement (left : Left all all.length place (first :: rest))
    (lexed : Lexer.tokensFrom .start 0 source = .ok all) (known : Known all readChain readers)
    (begins : endsStatement 0 first = false) :
    Follows all all.length (rest.length + 1) (simpleStatement source all place)
      (.ok (.undecided (UnitReader.readings source readers first
          (rest.take (UnitReader.statementLength (bracketChange first.kind) rest))),
        rest.drop (UnitReader.statementLength (bracketChange first.kind) rest))) := by
  have stop := left.statementEnd 0 left.length_lt
  rw [UnitReader.statementLength, begins, if_neg Bool.false_ne_true, Int.zero_add] at stop
  have within := statementLength_le (bracketChange first.kind) rest
  generalize UnitReader.statementLength (bracketChange first.kind) rest = length at stop within ⊢
  have taken := left.take (Nat.succ_le_succ within)
  have after := left.drop (Nat.succ_le_succ within)
  have command := taken.commandReading lexed known
  have ran : Strict.simpleStatement source all place =
      some (.ok (.undecided (UnitReader.readings source readers first (rest.take length)),
        place + (length + 1))) := by
    rw [Strict.simpleStatement, get_bind, stop, demand_bind, left.getElem?_eq, demand_bind,
      taken.getLast, demand_bind, taken.hostReading known, demand_bind, set_bind]
    change (demand (Strict.commandReading source
      (UnitReader.spanOf first (rest.take length))) >>= _) _ = _
    rw [command, demand_bind]
    rfl
  rw [ran]
  refine .read after ?_
  rw [List.length_drop]
  omega

end Simple

section Units

/-- With steps enough, the readers of a unit at a place end as those of the tokens there. -/
structure ReadsUnitAt (source : List Char) (all : List Token) (readers : BodyReaders) (fuel : Nat) :
    Prop where
  statements : ∀ (inBlock : Bool) {place : Nat} {tokens : List Token},
    Left all all.length place tokens → 4 * tokens.length + 2 ≤ fuel →
    Follows all all.length (tokens.length + 1) (statements source all inBlock fuel place)
      (UnitReader.statements source readers fuel inBlock tokens)
  block : ∀ {place : Nat} {tokens : List Token}, Left all all.length place tokens →
    4 * tokens.length + 1 ≤ fuel →
    Follows all all.length tokens.length (block source all fuel place)
      (UnitReader.block source readers fuel tokens)
  guarded : ∀ {place : Nat} {tokens : List Token}, Left all all.length place tokens →
    4 * tokens.length + 1 ≤ fuel →
    Follows all all.length tokens.length (guarded source all fuel place)
      (UnitReader.guarded source readers fuel tokens)
  alternatives : ∀ {place : Nat} {tokens : List Token}, Left all all.length place tokens →
    4 * tokens.length + 1 ≤ fuel →
    Follows all all.length (tokens.length + 1) (alternatives source all fuel place)
      (UnitReader.alternatives source readers fuel tokens)
  statement : ∀ {first : Token} {place : Nat} {rest : List Token},
    Left all all.length place (first :: rest) → endsStatement 0 first = false →
    4 * rest.length + 5 ≤ fuel →
    Follows all all.length (rest.length + 1) (statement source all first fuel place)
      (UnitReader.statement source readers fuel first rest)

variable {α : Type} {source : List Char} {all tokens rest : List Token}
  {limit bound place fuel : Nat} {readers : BodyReaders} {first : Token}

theorem Left.atStatementEnd_bind (left : Left all all.length place tokens)
    (later : Bool → Strict α) :
    (atStatementEnd all >>= later) place = later (UnitReader.atStatementEnd tokens) place :=
  bind_ok (left.peek_bind _) later

theorem Left.keywordAlone (left : Left all all.length place (first :: rest))
    (statement : Statement) :
    Follows all all.length (rest.length + 1) (keywordAlone all statement place)
      (UnitReader.keywordAlone statement rest) := by
  rw [Strict.keywordAlone, move_bind, left.next.atStatementEnd_bind, UnitReader.keywordAlone]
  split
  · exact .read left.next (Nat.lt_succ_self _)
  · exact left.next.unexpected

variable {result : Option (Except ParseError (α × Nat))}

theorem Follows.eq_error {error : ParseError}
    (follows : Follows all limit bound result (.error error)) : result = some (.error error) := by
  obtain ⟨_, ran, same⟩ | ⟨_, _, _, _, same, _⟩ := follows
  · cases same
    exact ran
  · cases same

theorem Follows.passes {value : α} (follows : Follows all limit bound result (.ok (value, rest))) :
    ∃ place, result = some (.ok (value, place)) ∧ Left all limit place rest ∧
      rest.length < bound := by
  obtain ⟨_, _, same⟩ | ⟨_, place, _, ran, same, left, fewer⟩ := follows
  · cases same
  · simp_all

theorem Left.parameters {count : Nat} (left : Left all all.length place tokens)
    (enough : tokens.length < count) :
    Follows all all.length tokens.length (parameters all count place)
      (UnitReader.parameters tokens) := by
  induction count generalizing place tokens with
  | zero => cases enough
  | succ count ih =>
    have named := left.expectName
    rw [Strict.parameters, left.peek_bind]
    cases tokens with
    | nil => exact .failed (bind_error named.eq_error _) rfl
    | cons token rest =>
      unfold UnitReader.parameters
      by_cases closes : token.kind.isPunct .rparen = true
      · have ran := left.expectPunct_eq .rparen
        rw [HybridShell.expectPunct, if_pos closes] at ran
        simp only [List.head?_cons, Option.any_some, closes, if_true]
        rw [bind_ok ran]
        exact .read left.next (Nat.lt_succ_self _)
      · simp only [List.head?_cons, Option.any_some, closes, Bool.false_eq_true, if_false]
        cases ok : HybridShell.expectName (token :: rest) with
        | error error =>
          rw [ok] at named
          exact .failed (bind_error named.eq_error _) rfl
        | ok pair =>
          obtain ⟨name, after⟩ := pair
          obtain rfl := eq_of_expectName ok
          rw [ok] at named
          obtain ⟨next, ran, left, _⟩ := named.passes
          rw [bind_ok ran, left.eat_bind]
          cases after with
          | nil =>
            have ran := left.expectPunct_eq .rparen
            exact .failed (bind_error ran _) rfl
          | cons comma rest =>
            simp only [List.length_cons] at enough ⊢
            by_cases isComma : comma.kind.isPunct .comma = true
            · simp only [List.head?_cons, Option.any_some, isComma, if_true]
              exact (ih left.next (by omega)).map (name :: ·) (by omega)
            · simp only [List.head?_cons, Option.any_some, isComma, Bool.false_eq_true, if_false]
              refine left.expectPunct fun final left fewer => ?_
              exact .read left (by simp only [List.length_cons] at fewer; omega)

section Step

variable (inner : ReadsUnitAt source all readers fuel)

include inner

theorem ReadsUnitAt.statements_succ (inBlock : Bool) (left : Left all all.length place tokens)
    (enough : 4 * tokens.length + 2 ≤ fuel + 1) :
    Follows all all.length (tokens.length + 1) (Strict.statements source all inBlock (fuel + 1) place)
      (UnitReader.statements source readers (fuel + 1) inBlock tokens) := by
  unfold Strict.statements UnitReader.statements
  obtain ⟨next, skipped, left⟩ := left.skip isSeparator left.length_lt
  have shorter : (tokens.dropWhile isSeparator).length ≤ tokens.length :=
    (List.dropWhile_sublist _).length_le
  have begins := List.head?_dropWhile_not isSeparator tokens
  rw [bind_ok skipped, left.peek_bind]
  generalize tokens.dropWhile isSeparator = remaining at left shorter begins ⊢
  cases remaining with
  | nil =>
    cases inBlock with
    | true => exact .failed rfl rfl
    | false => exact .read left (Nat.succ_le_succ shorter)
  | cons token rest =>
    simp only [List.head?_cons]
    split
    · cases inBlock with
      | true => exact .read left (Nat.lt_succ_of_le shorter)
      | false => exact left.unexpected
    · rw [List.length_cons] at shorter
      have starts : endsStatement 0 token = false := by simp_all [endsStatement]
      refine (inner.statement left starts (by omega)).andThen
        fun first place after left fewer => ?_
      exact (inner.statements inBlock left (by omega)).map (first :: ·) (by omega)

theorem ReadsUnitAt.block_succ (left : Left all all.length place tokens)
    (enough : 4 * tokens.length + 1 ≤ fuel + 1) :
    Follows all all.length tokens.length (Strict.block source all (fuel + 1) place)
      (UnitReader.block source readers (fuel + 1) tokens) := by
  unfold Strict.block UnitReader.block
  refine left.expectPunct fun rest left fewer => ?_
  refine (inner.statements true left (by omega)).andThen fun body place after left fewer => ?_
  refine left.expectPunct fun final left fewer => ?_
  exact .read left (by omega)

theorem ReadsUnitAt.guarded_succ (known : Known all readChain readers)
    (left : Left all all.length place tokens) (enough : 4 * tokens.length + 1 ≤ fuel + 1) :
    Follows all all.length tokens.length (Strict.guarded source all (fuel + 1) place)
      (UnitReader.guarded source readers (fuel + 1) tokens) := by
  unfold Strict.guarded UnitReader.guarded
  refine (left.expression known).andThen fun condition place after left fewer => ?_
  exact (inner.block left (by omega)).map (condition, ·) (by omega)

theorem ReadsUnitAt.alternatives_succ (left : Left all all.length place tokens)
    (enough : 4 * tokens.length + 1 ≤ fuel + 1) :
    Follows all all.length (tokens.length + 1) (Strict.alternatives source all (fuel + 1) place)
      (UnitReader.alternatives source readers (fuel + 1) tokens) := by
  unfold Strict.alternatives UnitReader.alternatives
  obtain ⟨next, skipped, after⟩ := left.skip (·.kind.isNewline) left.length_lt
  have shorter : (tokens.dropWhile (·.kind.isNewline)).length ≤ tokens.length :=
    (List.dropWhile_sublist _).length_le
  rw [get_bind, bind_ok skipped, after.eat_bind]
  generalize tokens.dropWhile (·.kind.isNewline) = remaining at after shorter ⊢
  cases remaining with
  | nil =>
    change Follows _ _ _ ((eat all all.length (·.isWord "else") >>= _) next) _
    rw [after.eat_bind]
    exact .read left (Nat.lt_succ_self _)
  | cons token rest =>
    rw [List.length_cons] at shorter
    simp only [startsWithWord, List.head?_cons, Option.any_some, List.drop_succ_cons,
      List.drop_zero]
    by_cases isElif : token.kind.isWord "elif" = true
    · simp only [isElif, if_true]
      refine (inner.guarded after.next (by omega)).andThen fun branch place rest left fewer => ?_
      exact (inner.alternatives left (by omega)).map (Alternatives.branch branch.1 branch.2)
        (by omega)
    · simp only [isElif, Bool.false_eq_true, if_false, after.eat_bind, List.head?_cons,
        Option.any_some]
      by_cases isElse : token.kind.isWord "else" = true
      · simp only [isElse, if_true]
        exact (inner.block after.next (by omega)).map Alternatives.otherwise (by omega)
      · simp only [isElse, Bool.false_eq_true, if_false]
        exact .read left (Nat.lt_succ_self _)

theorem ReadsUnitAt.statement_succ (lexed : Lexer.tokensFrom .start 0 source = .ok all)
    (known : Known all readChain readers) (left : Left all all.length place (first :: rest))
    (begins : endsStatement 0 first = false) (enough : 4 * rest.length + 5 ≤ fuel + 1) :
    Follows all all.length (rest.length + 1) (Strict.statement source all first (fuel + 1) place)
      (UnitReader.statement source readers (fuel + 1) first rest) := by
  unfold Strict.statement UnitReader.statement
  split
  · next isIf =>
    simp only [isIf, move_bind]
    refine (inner.guarded left.next (by omega)).andThen fun branch place rest left fewer => ?_
    exact (inner.alternatives left (by omega)).map
      (fun others => Statement.conditional (.branch branch.1 branch.2 others)) (by omega)
  · next isWhile =>
    simp only [isWhile, move_bind]
    exact (inner.guarded left.next (by omega)).map
      (fun branch => Statement.whileLoop branch.1 branch.2) (by omega)
  · next isFor =>
    simp only [isFor, move_bind]
    refine left.next.expectName.andThen fun name place after left fewer => ?_
    simp only [left.eat_bind, startsWithWord]
    by_cases isIn : after.head?.any (·.kind.isWord "in") = true
    · simp only [isIn, if_true]
      cases after with
      | nil => cases isIn
      | cons token after =>
        simp only [List.length_cons, List.drop_succ_cons, List.drop_zero] at fewer ⊢
        exact (inner.guarded left.next (by omega)).map
          (fun branch => Statement.forLoop name branch.1 branch.2) (by omega)
    · simp only [isIn, Bool.false_eq_true, if_false]
      exact left.unexpected
  · next isDef =>
    simp only [isDef, move_bind]
    refine left.next.expectName.andThen fun name place after left fewer => ?_
    refine left.expectPunct fun inside left fewer => ?_
    refine (left.parameters left.length_lt).andThen fun names place after left fewer => ?_
    exact (inner.block left (by omega)).map
      (Statement.define first.span.start name names) (by omega)
  · next isReturn =>
    simp only [isReturn, move_bind, left.next.atStatementEnd_bind]
    cases UnitReader.atStatementEnd rest with
    | true => exact .read left.next (Nat.lt_succ_self _)
    | false =>
      exact (left.next.expression known).map (fun value => Statement.returnValue (some value))
        (by omega)
  · next isBreak =>
    simp only [isBreak]
    exact left.keywordAlone _
  · next isContinue =>
    simp only [isContinue]
    exact left.keywordAlone _
  · next isPass =>
    simp only [isPass]
    exact left.keywordAlone _
  · simp only []
    exact left.simpleStatement lexed known begins

end Step

theorem readsUnitAt (lexed : Lexer.tokensFrom .start 0 source = .ok all)
    (known : Known all readChain readers) (fuel : Nat) : ReadsUnitAt source all readers fuel := by
  induction fuel with
  | zero => constructor <;> intros <;> contradiction
  | succ fuel inner =>
    exact ⟨fun inBlock _ _ => inner.statements_succ inBlock, inner.block_succ,
      inner.guarded_succ known, inner.alternatives_succ, inner.statement_succ lexed known⟩

end Units

/-! ### Whole texts -/

def readUnit (source : List Char) : Option (Except ParseError (List Statement)) :=
  (lex source).bind fun lexed =>
    match lexed with
    | .error error => some (.error (.lexical error))
    | .ok tokens => outcome (statements source tokens false (UnitReader.steps tokens.length)) 0

def readWords (source : List Char) : Option (Except ParseError (List String)) :=
  (commandTokensOf (bodiesOf source) source).map
    (·.bind fun tokens => tokens.mapM PlainWords.tokenText)

theorem readUnit_eq (source : String) : readUnit source.toList = some (parseUnit source) := by
  rw [readUnit, lex_eq, parseUnit]
  cases lexed : HybridShell.lex source with
  | error error => rfl
  | ok tokens =>
    have known : Known tokens readChain (.forText source.toList) :=
      known_of_lex (fun text short => (read_eq_ofDepth (Nat.lt_succ_of_lt short)).1) lexed
    have read := (readsUnitAt lexed known (UnitReader.steps tokens.length)).statements false
      (left_start tokens) (by rw [UnitReader.steps]; omega)
    change outcome (statements source.toList tokens false _) 0 =
      some (Except.bind (UnitReader.statements source.toList _ _ false tokens) _)
    obtain ⟨error, ran, failed⟩ | ⟨unit, place, rest, ran, ok, _⟩ := read
    · rw [outcome, ran, failed]
      rfl
    · rw [outcome, ran, ok]
      rfl

theorem readWords_eq (source : String) : readWords source.toList = some (splitWords source) := by
  have agree : (bodiesOf source.toList).Agree (.forText source.toList) source.toList.length :=
    bodiesOf_agree fun body short => read_eq_ofDepth (Nat.lt_succ_of_lt short)
  rw [readWords, commandTokensOf_eq agree]
  rfl

end Strict

/--
Every text is read by places: no index or byte offset is outside the input or inside a character,
no difference is below zero, no loop goes on forever, and each nested text is shorter than the text
that holds it.
-/
theorem reading_by_places (source : String) :
    Strict.lex source.toList = some (lex source) ∧
      Strict.readUnit source.toList = some (parseUnit source) ∧
      Strict.readExpression source.toList = some (parseExpression source) ∧
      Strict.readChain source.toList = some (parseChain source) ∧
      Strict.readWords source.toList = some (splitWords source) := by
  have expression := Strict.readExpression_eq source.toList
  have chain := Strict.readChain_eq source.toList
  rw [String.ofList_toList] at expression chain
  exact ⟨Strict.lex_eq source, Strict.readUnit_eq source, expression, chain,
    Strict.readWords_eq source⟩

end HybridShell
