import HybridShell.Proofs.ExpressionUnambiguity
import HybridShell.Proofs.StrictReading

/-!
# Reading expressions by places

The reader of expressions with an index into its tokens for its place, and a limit that the place
does not pass.  A token is taken by its index, and one that does not fit is given back.
-/

namespace HybridShell

theorem eq_of_expectName {token : Token} {rest next : List Token} {name : String}
    (ok : expectName (token :: rest) = .ok (name, next)) : next = rest := by
  unfold expectName at ok
  grind

namespace Strict

/-- Move an error to another line, unless its line would be below zero. -/
def relocate? (base : Nat) : ParseError → Option ParseError
  | .malformed line fault => (minus? (base + line) 1).map fun line => .malformed line fault
  | error => some error

def relocated {α : Type} (base : Nat) (found : Option (Except ParseError α)) :
    Option (Except ParseError α) :=
  found.bind fun result =>
    match result with
    | .ok value => some (.ok value)
    | .error error => (relocate? base error).map .error

def fail {α : Type} (error : ParseError) : Strict α :=
  fun _ => some (.error error)

def back : Strict Unit :=
  fun place => (minus? place 1).map fun before => .ok ((), before)

section Reader

variable (all : List Token) (chain : List Char → Option (Except ParseError Chain)) (limit : Nat)

def peek : Strict (Option Token) := fun place =>
  if place < limit then all[place]?.map fun token => .ok (some token, place)
  else some (.ok (none, place))

/-- The line of the token at a place, or of the last token. -/
def lineOf (place : Nat) : Nat :=
  (all[min place (all.length - 1)]?.map (·.span.line)).getD 1

def lineAt : Strict Nat :=
  fun place => some (.ok (lineOf all place, place))

def unexpected {α : Type} : Strict α := do
  match ← peek all limit with
  | none => fail .unexpectedEnd
  | some token => do
    let line ← lineAt all
    fail (.malformed line (.unexpectedToken token.kind))

/-- Pass a token of the given kind, if it is there. -/
def eat (test : TokenKind → Bool) : Strict Bool := do
  if (← peek all limit).any (test ·.kind) then do
    move 1
    pure true
  else pure false

def expectPunct (punct : Punct) : Strict Unit := do
  if ← eat all limit (·.isPunct punct) then pure () else unexpected all limit

def expectName : Strict String := do
  match ← peek all limit with
  | some ⟨.name text, _⟩ =>
    if isKeyword text then unexpected all limit
    else do
      move 1
      pure text
  | _ => unexpected all limit

mutual

def atLevel (level : Level) : Nat → Strict Expr
  | 0 => demand none
  | steps + 1 =>
    match level with
    | .suffix => do
      let base ← atom steps
      suffixes base steps
    | .negation | .minus => do
      match (← peek all limit).bind (level.before? ·.kind) with
      | some change => do
        move 1
        let operand ← atLevel level steps
        pure (change operand)
      | none => atLevel level.tighter steps
    | .comparison => do
      let left ← atLevel level.tighter steps
      match (← peek all limit).bind (level.join? ·.kind) with
      | some join => do
        move 1
        let right ← atLevel level.tighter steps
        pure (join left right)
      | none => pure left
    | _ => do
      let left ← atLevel level.tighter steps
      operators level left steps

def operators (level : Level) (left : Expr) : Nat → Strict Expr
  | 0 => demand none
  | steps + 1 => do
    match (← peek all limit).bind (level.join? ·.kind) with
    | none => pure left
    | some join => do
      move 1
      let right ← atLevel level.tighter steps
      operators level (join left right) steps

def suffixes (base : Expr) : Nat → Strict Expr
  | 0 => demand none
  | steps + 1 => do
    match (← peek all limit).map Token.kind with
    | some (.punct .lparen) => do
      move 1
      let arguments ← items .rparen steps
      suffixes (.call base arguments) steps
    | some (.punct .lbracket) => do
      move 1
      let position ← atLevel .disjunction steps
      expectPunct all limit .rbracket
      suffixes (.index base position) steps
    | some (.punct .dot) => do
      move 1
      let name ← expectName all limit
      suffixes (.member base name) steps
    | _ => pure base

def items (closing : Punct) : Nat → Strict (List Expr)
  | 0 => demand none
  | steps + 1 => do
    if (← peek all limit).any (·.kind.isPunct closing) then do
      expectPunct all limit closing
      pure []
    else do
      let first ← atLevel .disjunction steps
      if ← eat all limit (·.isPunct .comma) then do
        let others ← items closing steps
        pure (first :: others)
      else do
        expectPunct all limit closing
        pure [first]

def atom : Nat → Strict Expr
  | 0 => demand none
  | steps + 1 => do
    let line ← lineAt all
    match ← peek all limit with
    | none => fail .unexpectedEnd
    | some token => do
      move 1
      match token.kind with
      | .int value => pure (.int value)
      | .float value => pure (.float value)
      | .str text => pure (.str text)
      | .env name => pure (.env name)
      | .name text =>
        match ExpressionReader.constant? text with
        | some value => pure value
        | none =>
          if isKeyword text then do
            back
            unexpected all limit
          else pure (.name text)
      | .punct .lparen => do
        let inner ← atLevel .disjunction steps
        expectPunct all limit .rparen
        pure inner
      | .punct .lbracket => do
        let values ← items .rbracket steps
        pure (.list values)
      | .subprocess capture body => do
        let chain ← reading (relocated line (chain body.toList))
        pure (.subprocess capture chain)
      | _ => do
        back
        unexpected all limit

end

/-- An expression, in as many steps as the tokens up to the limit allow. -/
def expression : Strict Expr := fun place =>
  atLevel all chain limit .disjunction (ExpressionReader.steps (limit - place)) place

end Reader

/-! ### Places and the tokens that are left -/

/-- The tokens that are left at a place below a limit. -/
structure Left (all : List Token) (limit place : Nat) (tokens : List Token) : Prop where
  within : limit ≤ all.length
  eq_drop : tokens = (all.take limit).drop place
  count : place + tokens.length = limit

/-- A step ends as a reader of lists of tokens does, and fewer tokens than a bound are left. -/
def Follows {α : Type} (all : List Token) (limit bound : Nat)
    (result : Option (Except ParseError (α × Nat))) (model : Parsed α) : Prop :=
  (∃ error, result = some (.error error) ∧ model = .error error) ∨
    ∃ value place rest, result = some (.ok (value, place)) ∧ model = .ok (value, rest) ∧
      Left all limit place rest ∧ rest.length < bound

section Following

variable {α β : Type} {all tokens rest : List Token} {limit bound other place : Nat} {token : Token}

theorem Left.next (left : Left all limit place (token :: rest)) : Left all limit (place + 1) rest where
  within := left.within
  eq_drop := by
    rw [← List.drop_drop, ← left.eq_drop]
    rfl
  count := by
    have := left.count
    grind

theorem Left.length_lt (left : Left all limit place tokens) : tokens.length < limit + 1 := by
  have := left.count
  omega

/-- Where the first token is of some use, it can be passed. -/
theorem Left.pass {use : Token → Option α} {value : α} (left : Left all limit place tokens)
    (found : tokens.head?.bind use = some value) :
    Left all limit (place + 1) (tokens.drop 1) ∧ (tokens.drop 1).length < tokens.length := by
  cases tokens with
  | nil => cases found
  | cons token rest => exact ⟨left.next, Nat.lt_succ_self _⟩

theorem Left.getElem?_eq (left : Left all limit place (token :: rest)) : all[place]? = some token := by
  have first : ((all.take limit).drop place)[0]? = some token := by
    rw [← left.eq_drop]
    rfl
  grind

theorem Left.mem (left : Left all limit place (token :: rest)) : token ∈ all :=
  List.mem_of_getElem? left.getElem?_eq

theorem Left.peek_eq (left : Left all limit place tokens) :
    peek all limit place = some (.ok (tokens.head?, place)) := by
  cases tokens with
  | nil =>
    have atEnd := left.count
    exact if_neg (by simp at atEnd; omega)
  | cons token rest =>
    have below := left.count
    grind [peek, left.getElem?_eq]

theorem Left.peek_bind (left : Left all limit place tokens) (later : Option Token → Strict α) :
    (peek all limit >>= later) place = later tokens.head? place :=
  bind_ok left.peek_eq later

theorem relocated_some {base : Nat} (positive : 0 < base) (result : Except ParseError α) :
    relocated base (some result) = some (result.mapError (·.relocate base)) := by
  cases result with
  | ok value => rfl
  | error error =>
    cases error with
    | malformed line fault =>
      change ((minus? (base + line) 1).map _).map _ = _
      rw [minus?_of_le (by omega)]
      rfl
    | _ => rfl

theorem lineAt_bind (later : Nat → Strict α) :
    (lineAt all >>= later) place = later (lineOf all place) place :=
  rfl

theorem Left.lineOf_eq (left : Left all limit place (token :: rest)) :
    lineOf all place = token.span.line := by
  grind [lineOf, left.getElem?_eq]

theorem Left.unexpected_eq (left : Left all limit place tokens) :
    unexpected all limit place =
      some (.error (HybridShell.unexpected tokens) : Except ParseError (α × Nat)) := by
  rw [unexpected, left.peek_bind]
  cases tokens with
  | nil => rfl
  | cons token rest =>
    change (lineAt all >>= _) place = _
    rw [lineAt_bind, left.lineOf_eq]
    rfl

theorem Left.eat_bind (left : Left all limit place tokens) (test : TokenKind → Bool)
    (later : Bool → Strict α) :
    (eat all limit test >>= later) place =
      if tokens.head?.any (test ·.kind) then later true (place + 1) else later false place := by
  have ran : eat all limit test place =
      if tokens.head?.any (test ·.kind) then some (.ok (true, place + 1))
      else some (.ok (false, place)) := by
    rw [eat, left.peek_bind]
    split <;> rfl
  split
  · next found => exact bind_ok (by rw [ran, if_pos found]) later
  · next missing => exact bind_ok (by rw [ran, if_neg missing]) later

namespace Follows

variable {result : Option (Except ParseError (α × Nat))} {model : Parsed α}

theorem failed {error : ParseError} (ran : result = some (.error error))
    (fails : model = .error error) : Follows all limit bound result model :=
  .inl ⟨error, ran, fails⟩

theorem read {value : α} (left : Left all limit place rest) (fewer : rest.length < bound) :
    Follows all limit bound (some (.ok (value, place))) (.ok (value, rest)) :=
  .inr ⟨value, place, rest, rfl, rfl, left, fewer⟩

theorem mono (follows : Follows all limit bound result model) (more : bound ≤ other) :
    Follows all limit other result model := by
  obtain failure | ⟨value, place, rest, ran, ok, left, fewer⟩ := follows
  · exact .inl failure
  · exact .inr ⟨value, place, rest, ran, ok, left, Nat.lt_of_lt_of_le fewer more⟩

/-- A step and the steps after it, beside a reader and what goes on after it. -/
theorem andThen {step : Strict α} {later : α → Strict β} {next : α × List Token → Parsed β}
    (first : Follows all limit bound (step place) model)
    (goesOn : ∀ value place rest, Left all limit place rest → rest.length < bound →
      Follows all limit other (later value place) (next (value, rest))) :
    Follows all limit other ((step >>= later) place) (model.bind next) := by
  obtain ⟨error, ran, rfl⟩ | ⟨value, place, rest, ran, rfl, left, fewer⟩ := first
  · exact .inl ⟨error, bind_error ran _, rfl⟩
  · rw [bind_ok ran]
    exact goesOn value place rest left fewer

theorem map {step : Strict α} (first : Follows all limit bound (step place) model) (given : α → β)
    (more : bound ≤ other) :
    Follows all limit other ((step >>= fun value => pure (given value)) place)
      (model.bind fun found => .ok (given found.1, found.2)) :=
  first.andThen fun _ _ _ left fewer => .read left (Nat.lt_of_lt_of_le fewer more)

end Follows

theorem Left.unexpected (left : Left all limit place tokens) :
    Follows all limit bound (Strict.unexpected all limit place)
      (.error (HybridShell.unexpected tokens) : Parsed α) :=
  .failed left.unexpected_eq rfl

theorem Left.rejected (left : Left all limit place (token :: rest)) :
    Follows all limit bound ((back >>= fun _ => Strict.unexpected all limit) (place + 1))
      (.error (HybridShell.unexpected (token :: rest)) : Parsed α) :=
  left.unexpected

theorem Left.expectPunct_eq (left : Left all limit place tokens) (punct : Punct) :
    expectPunct all limit punct place =
      some ((HybridShell.expectPunct punct tokens).map fun _ => ((), place + 1)) := by
  rw [expectPunct, left.eat_bind]
  cases tokens with
  | nil => exact left.unexpected_eq
  | cons token rest =>
    rw [HybridShell.expectPunct]
    simp only [List.head?_cons, Option.any_some]
    split
    · rfl
    · exact left.unexpected_eq

theorem Left.expectPunct {punct : Punct} {later : Unit → Strict β}
    {next : List Token → Parsed β} (left : Left all limit place tokens)
    (goesOn : ∀ rest, Left all limit (place + 1) rest → rest.length < tokens.length →
      Follows all limit other (later () (place + 1)) (next rest)) :
    Follows all limit other ((Strict.expectPunct all limit punct >>= later) place)
      ((HybridShell.expectPunct punct tokens).bind next) := by
  have ran := left.expectPunct_eq punct
  cases tokens with
  | nil => exact .failed (bind_error ran _) rfl
  | cons token rest =>
    rw [HybridShell.expectPunct] at ran ⊢
    split at ran
    · next found =>
      rw [bind_ok ran, if_pos found]
      exact goesOn rest left.next (Nat.lt_succ_self _)
    · next missing =>
      rw [if_neg missing]
      exact .failed (bind_error ran _) rfl

theorem Left.expectName (left : Left all limit place tokens) :
    Follows all limit tokens.length (Strict.expectName all limit place)
      (HybridShell.expectName tokens) := by
  rw [Strict.expectName, left.peek_bind]
  cases tokens with
  | nil => exact left.unexpected
  | cons token rest =>
    obtain ⟨kind, span⟩ := token
    cases kind with
    | name text =>
      simp only [List.head?_cons, HybridShell.expectName]
      split
      · exact left.unexpected
      · exact .read left.next (Nat.lt_succ_self _)
    | _ => exact left.unexpected

end Following

section Expressions

open ExpressionGrammar (rank rank_le)

/-- With steps enough, the readers of an expression at a place end as those of the tokens there. -/
structure ReadsAt (all : List Token) (chain : List Char → Option (Except ParseError Chain))
    (limit : Nat) (readers : BodyReaders) (fuel : Nat) : Prop where
  atLevel : ∀ (level : Level) {place : Nat} {tokens : List Token}, Left all limit place tokens →
    16 * tokens.length + rank level + 1 ≤ fuel →
    Follows all limit tokens.length (atLevel all chain limit level fuel place)
      (ExpressionReader.atLevel readers fuel level tokens)
  operators : ∀ {level : Level} {first : Expr} {place : Nat} {tokens : List Token},
    Left all limit place tokens → 16 * tokens.length + 1 ≤ fuel →
    Follows all limit (tokens.length + 1) (operators all chain limit level first fuel place)
      (ExpressionReader.operators readers fuel level first tokens)
  suffixes : ∀ {base : Expr} {place : Nat} {tokens : List Token}, Left all limit place tokens →
    16 * tokens.length + 1 ≤ fuel →
    Follows all limit (tokens.length + 1) (suffixes all chain limit base fuel place)
      (ExpressionReader.suffixes readers fuel base tokens)
  items : ∀ {closing : Punct} {place : Nat} {tokens : List Token}, Left all limit place tokens →
    16 * tokens.length + 10 ≤ fuel →
    Follows all limit tokens.length (items all chain limit closing fuel place)
      (ExpressionReader.items readers fuel closing tokens)
  atom : ∀ {place : Nat} {tokens : List Token}, Left all limit place tokens →
    16 * tokens.length + 1 ≤ fuel →
    Follows all limit tokens.length (atom all chain limit fuel place)
      (ExpressionReader.atom readers fuel tokens)

variable {all tokens : List Token} {chain : List Char → Option (Except ParseError Chain)}
  {limit place fuel : Nat} {readers : BodyReaders} {level : Level}

structure Known (all : List Token) (chain : List Char → Option (Except ParseError Chain))
    (readers : BodyReaders) : Prop where
  line_pos : ∀ token ∈ all, 0 < token.span.line
  chain_eq : ∀ token ∈ all, ∀ capture body, token.kind = .subprocess capture body →
    chain body.toList = some (readers.chain body.toList)

section Step

variable (inner : ReadsAt all chain limit readers fuel)

include inner

theorem ReadsAt.atLevel_succ (left : Left all limit place tokens)
    (enough : 16 * tokens.length + rank level + 1 ≤ fuel + 1) :
    Follows all limit tokens.length (Strict.atLevel all chain limit level (fuel + 1) place)
      (ExpressionReader.atLevel readers (fuel + 1) level tokens) := by
  replace enough := Nat.le_of_succ_le_succ enough
  unfold Strict.atLevel ExpressionReader.atLevel
  cases level with
  | suffix =>
    refine (inner.atom left enough).andThen fun base place rest left fewer => ?_
    exact (inner.suffixes left (by omega)).mono fewer
  | negation | minus =>
    simp only [left.peek_bind]
    split
    · next change isSign =>
      obtain ⟨left, fewer⟩ := left.pass isSign
      simp only [isSign, move_bind]
      refine (inner.atLevel _ left (by omega)).andThen fun operand _ after left less => ?_
      exact .read left (Nat.lt_trans less fewer)
    · next absent =>
      simp only [absent]
      exact inner.atLevel (Level.tighter _) left (by exact enough)
  | comparison =>
    refine (inner.atLevel (Level.tighter _) left (by exact enough)).andThen
      fun first place rest left fewer => ?_
    simp only [left.peek_bind]
    split
    · next join joins =>
      obtain ⟨left, less⟩ := left.pass joins
      simp only [joins, move_bind]
      have enough : 16 * (rest.drop 1).length + rank (Level.tighter .comparison) + 1 ≤ fuel := by
        simp only [Level.tighter, rank]
        omega
      refine (inner.atLevel _ left enough).andThen fun second _ after left least => ?_
      exact .read left (Nat.lt_trans least (Nat.lt_trans less fewer))
    · next absent =>
      simp only [absent]
      exact .read left fewer
  | disjunction | conjunction | sum | product =>
    refine (inner.atLevel (Level.tighter _) left (by exact enough)).andThen
      fun first place rest left fewer => ?_
    exact (inner.operators left (by omega)).mono fewer

theorem ReadsAt.operators_succ {first : Expr} (left : Left all limit place tokens)
    (enough : 16 * tokens.length + 1 ≤ fuel + 1) :
    Follows all limit (tokens.length + 1)
      (Strict.operators all chain limit level first (fuel + 1) place)
      (ExpressionReader.operators readers (fuel + 1) level first tokens) := by
  unfold Strict.operators ExpressionReader.operators
  rw [left.peek_bind]
  split
  · next absent =>
    simp only [absent]
    exact .read left (Nat.lt_succ_self _)
  · next join joins =>
    obtain ⟨left, fewer⟩ := left.pass joins
    simp only [joins, move_bind]
    have bounded := rank_le level.tighter
    refine (inner.atLevel _ left (by omega)).andThen fun second place after left less => ?_
    exact (inner.operators left (by omega)).mono (by omega)

theorem ReadsAt.suffixes_succ {base : Expr} (left : Left all limit place tokens)
    (enough : 16 * tokens.length + 1 ≤ fuel + 1) :
    Follows all limit (tokens.length + 1) (Strict.suffixes all chain limit base (fuel + 1) place)
      (ExpressionReader.suffixes readers (fuel + 1) base tokens) := by
  unfold Strict.suffixes
  rw [left.peek_bind]
  cases tokens with
  | nil => exact .read left (Nat.lt_succ_self _)
  | cons token rest =>
    obtain ⟨kind, span⟩ := token
    rw [List.length_cons] at enough ⊢
    cases kind with
    | punct punct =>
      cases punct with simp only [List.head?_cons, Option.map_some, move_bind]
      | lparen =>
        refine (inner.items left.next (by omega)).andThen fun arguments place after left fewer => ?_
        exact (inner.suffixes left (by omega)).mono (by omega)
      | lbracket =>
        refine (inner.atLevel .disjunction left.next (by rw [rank]; omega)).andThen
          fun position place after left fewer => ?_
        refine left.expectPunct fun final left less => ?_
        exact (inner.suffixes left (by omega)).mono (by omega)
      | dot =>
        refine left.next.expectName.andThen fun name place after left fewer => ?_
        exact (inner.suffixes left (by omega)).mono (by omega)
      | _ => exact .read left (Nat.lt_succ_self _)
    | _ => exact .read left (Nat.lt_succ_self _)

theorem ReadsAt.items_succ {closing : Punct} (left : Left all limit place tokens)
    (enough : 16 * tokens.length + 10 ≤ fuel + 1) :
    Follows all limit tokens.length (Strict.items all chain limit closing (fuel + 1) place)
      (ExpressionReader.items readers (fuel + 1) closing tokens) := by
  unfold Strict.items ExpressionReader.items startsWithPunct
  rw [left.peek_bind]
  split
  · next closes =>
    cases tokens with
    | nil => cases closes
    | cons token rest =>
      have closes : token.kind.isPunct closing = true := closes
      have ran := left.expectPunct_eq closing
      rw [HybridShell.expectPunct, if_pos closes] at ran
      rw [bind_ok ran]
      exact .read left.next (Nat.lt_succ_self _)
  · refine (inner.atLevel .disjunction left (by rw [rank]; omega)).andThen
      fun first place after left fewer => ?_
    simp only [left.eat_bind]
    split
    · next comma =>
      cases after with
      | nil => cases comma
      | cons token rest =>
        rw [List.length_cons] at fewer
        refine (inner.items left.next (by omega)).andThen fun others place final left less => ?_
        exact .read left (Nat.lt_trans (Nat.lt_succ_of_lt less) fewer)
    · refine left.expectPunct fun final left less => ?_
      exact .read left (by omega)

theorem ReadsAt.atom_succ (known : Known all chain readers) (left : Left all limit place tokens)
    (enough : 16 * tokens.length + 1 ≤ fuel + 1) :
    Follows all limit tokens.length (Strict.atom all chain limit (fuel + 1) place)
      (ExpressionReader.atom readers (fuel + 1) tokens) := by
  unfold Strict.atom
  rw [lineAt_bind, left.peek_bind]
  cases tokens with
  | nil => exact .failed rfl rfl
  | cons token rest =>
    simp only [List.head?_cons, move_bind, left.lineOf_eq, ExpressionReader.atom]
    have member := left.mem
    obtain ⟨kind, span⟩ := token
    rw [List.length_cons] at enough ⊢
    cases kind with
    | int value | float value | str text | env name =>
      exact .read left.next (Nat.lt_succ_self _)
    | name text =>
      simp only []
      cases ExpressionReader.constant? text with
      | some value => exact .read left.next (Nat.lt_succ_self _)
      | none =>
        cases isKeyword text with
        | true => exact left.rejected
        | false => exact .read left.next (Nat.lt_succ_self _)
    | punct punct =>
      cases punct with
      | lparen =>
        refine (inner.atLevel .disjunction left.next (by rw [rank]; omega)).andThen
          fun value place after left fewer => ?_
        refine left.expectPunct fun final left less => ?_
        exact .read left (by omega)
      | lbracket =>
        refine (inner.items left.next (by omega)).andThen fun values place after left fewer => ?_
        exact .read left (Nat.lt_succ_of_lt fewer)
      | _ => exact left.rejected
    | subprocess capture body =>
      simp only [known.chain_eq _ member capture body rfl, relocated_some (known.line_pos _ member)]
      cases readers.chain body.toList with
      | ok value => exact .read left.next (Nat.lt_succ_self _)
      | error error => exact .failed rfl rfl
    | _ => exact left.rejected

end Step

theorem readsAt (known : Known all chain readers) (limit fuel : Nat) :
    ReadsAt all chain limit readers fuel := by
  induction fuel with
  | zero => constructor <;> intros <;> contradiction
  | succ fuel inner =>
    exact ⟨fun _ _ _ => inner.atLevel_succ, inner.operators_succ, inner.suffixes_succ,
      inner.items_succ, inner.atom_succ known⟩

theorem Left.expression (left : Left all limit place tokens) (known : Known all chain readers) :
    Follows all limit tokens.length (Strict.expression all chain limit place)
      (ExpressionReader.expression readers tokens) := by
  rw [Strict.expression, ← left.count, Nat.add_sub_cancel_left, left.count]
  exact (readsAt known limit _).atLevel _ left (by simp only [rank, ExpressionReader.steps]; omega)

end Expressions

/-! ### Expressions that are a text of their own -/

def wholeExpression (all : List Token) (chain : List Char → Option (Except ParseError Chain)) :
    Strict Expr := do
  let result ← expression all chain all.length
  match ← peek all all.length with
  | none => pure result
  | some _ => unexpected all all.length

def expressionOf (chain : List Char → Option (Except ParseError Chain)) (source : List Char) :
    Option (Except ParseError Expr) :=
  (lex source).bind fun lexed =>
    match lexed with
    | .error error => some (.error (.lexical error))
    | .ok tokens =>
      outcome (wholeExpression (tokens.filter fun token => !token.kind.isNewline) chain) 0

section Texts

variable {chain : List Char → Option (Except ParseError Chain)} {readers : BodyReaders}
  {source : List Char} {tokens : List Token}

theorem left_start (all : List Token) : Left all all.length 0 all where
  within := Nat.le_refl _
  eq_drop := List.take_length.symm
  count := Nat.zero_add _

theorem lex_ofList : lex source = some (Lexer.tokensFrom .start 0 source) := by
  have lexed := lex_eq (String.ofList source)
  rwa [HybridShell.lex, String.toList_ofList] at lexed

theorem known_of_lex
    (agree : ∀ text : List Char, text.length < source.length → chain text = some (readers.chain text))
    (lexed : Lexer.tokensFrom .start 0 source = .ok tokens) : Known tokens chain readers where
  line_pos token member := by
    obtain ⟨final, reaches⟩ := Lexer.exists_reaches_of_ok lexed
    obtain ⟨before, text, after, _, _, _, _, line, _⟩ := reaches.covers member
    omega
  chain_eq token member capture body found :=
    agree body.toList (Lexer.body_shorter_of_mem lexed member found)

theorem Known.filter (known : Known tokens chain readers) (test : Token → Bool) :
    Known (tokens.filter test) chain readers where
  line_pos token member := known.line_pos token (List.mem_filter.mp member).1
  chain_eq token member := known.chain_eq token (List.mem_filter.mp member).1

theorem expressionOf_eq
    (agree : ∀ text : List Char, text.length < source.length →
      chain text = some (readers.chain text)) :
    expressionOf chain source = some (ExpressionReader.readWith readers source) := by
  rw [expressionOf, lex_ofList, ExpressionReader.readWith]
  cases lexed : Lexer.tokensFrom .start 0 source with
  | error error => rfl
  | ok tokens =>
    have known := (known_of_lex agree lexed).filter fun token => !token.kind.isNewline
    change outcome (wholeExpression (tokens.filter fun token => !token.kind.isNewline) chain) 0 =
      some (Except.bind (ExpressionReader.expression readers _) _)
    generalize (tokens.filter fun token => !token.kind.isNewline) = all at known ⊢
    rw [outcome, wholeExpression]
    obtain ⟨error, ran, failed⟩ | ⟨result, place, rest, ran, read, left, _⟩ :=
      (left_start all).expression known
    · rw [bind_error ran, failed]
      rfl
    · rw [bind_ok ran, left.peek_bind, read]
      cases rest with
      | nil => rfl
      | cons token rest =>
        change Option.map _ (unexpected all all.length place) = _
        rw [left.unexpected_eq]
        rfl

end Texts

end Strict

end HybridShell
