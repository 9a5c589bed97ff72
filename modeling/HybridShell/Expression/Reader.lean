import HybridShell.Grammar.Fault
import HybridShell.Token.Lexer

/-!
# Reading expressions

The grammar is a ladder of levels, from `or` at the top to calls, indices and
attributes at the bottom.  All functions here return the tokens that follow,
and recurse on a step count.
-/

namespace HybridShell

/-- The levels of the expression grammar, loosest first. -/
inductive Level where
  | disjunction
  | conjunction
  | negation
  | comparison
  | sum
  | product
  | minus
  | suffix
  deriving Repr, DecidableEq

namespace Level

def tighter : Level → Level
  | disjunction => conjunction
  | conjunction => negation
  | negation => comparison
  | comparison => sum
  | sum => product
  | product => minus
  | minus => suffix
  | suffix => suffix

def join? (level : Level) (kind : TokenKind) : Option (Expr → Expr → Expr) :=
  match level, kind with
  | disjunction, .name "or" => some (.logic .or)
  | conjunction, .name "and" => some (.logic .and)
  | comparison, .punct .eq => some (.binary .eq)
  | comparison, .punct .ne => some (.binary .ne)
  | comparison, .punct .lt => some (.binary .lt)
  | comparison, .punct .le => some (.binary .le)
  | comparison, .punct .gt => some (.binary .gt)
  | comparison, .punct .ge => some (.binary .ge)
  | comparison, .name "in" => some (.binary .mem)
  | sum, .punct .plus => some (.binary .add)
  | sum, .punct .minus => some (.binary .sub)
  | product, .punct .star => some (.binary .mul)
  | product, .punct .slash => some (.binary .div)
  | product, .punct .slashSlash => some (.binary .floorDiv)
  | product, .punct .percent => some (.binary .mod)
  | _, _ => none

def before? (level : Level) (kind : TokenKind) : Option (Expr → Expr) :=
  match level, kind with
  | negation, .name "not" => some .not
  | minus, .punct .minus => some .neg
  | _, _ => none

end Level

def keywords : List String :=
  ["if", "elif", "else", "while", "for", "in", "def", "return", "break", "continue", "pass",
    "and", "or", "not", "True", "False", "None"]

def isKeyword (word : String) : Bool :=
  keywords.contains word

/-- The result of reading something from the front of the tokens. -/
abbrev Parsed (α : Type) := Except ParseError (α × List Token)

variable (tokens : List Token)

def unexpected : ParseError :=
  match tokens with
  | [] => .unexpectedEnd
  | token :: _ => .malformed token.span.line (.unexpectedToken token.kind)

def expectPunct (punct : Punct) (tokens : List Token) : Except ParseError (List Token) :=
  match tokens with
  | token :: rest => if token.kind.isPunct punct then .ok rest else .error (unexpected tokens)
  | [] => .error .unexpectedEnd

def expectName : Parsed String :=
  match tokens with
  | ⟨.name text, _⟩ :: rest =>
    if isKeyword text then .error (unexpected tokens) else .ok (text, rest)
  | _ => .error (unexpected tokens)

def startsWithPunct (punct : Punct) : Bool :=
  tokens.head?.any (·.kind.isPunct punct)

def startsWithWord (word : String) : Bool :=
  tokens.head?.any (·.kind.isWord word)

namespace ExpressionReader

def constant? : String → Option Expr
  | "True" => some (.bool true)
  | "False" => some (.bool false)
  | "None" => some .none
  | _ => none

section

variable (readers : BodyReaders)

mutual

def atLevel : Nat → Level → List Token → Except ParseError (Expr × List Token)
  | 0, _, _ => .error .exhausted
  | fuel + 1, level, tokens =>
    match level with
    | .suffix => do
      let (base, rest) ← atom fuel tokens
      suffixes fuel base rest
    | .negation | .minus =>
      match tokens.head?.bind (level.before? ·.kind) with
      | some change => do
        let (operand, after) ← atLevel fuel level (tokens.drop 1)
        pure (change operand, after)
      | none => atLevel fuel level.tighter tokens
    | .comparison => do
      let (left, rest) ← atLevel fuel level.tighter tokens
      match rest.head?.bind (level.join? ·.kind) with
      | some join => do
        let (right, after) ← atLevel fuel level.tighter (rest.drop 1)
        pure (join left right, after)
      | none => pure (left, rest)
    | _ => do
      let (left, rest) ← atLevel fuel level.tighter tokens
      operators fuel level left rest

/-- The operators of a level that follow its first operand, grouped to the left. -/
def operators : Nat → Level → Expr → List Token → Except ParseError (Expr × List Token)
  | 0, _, _, _ => .error .exhausted
  | fuel + 1, level, left, tokens =>
    match tokens.head?.bind (level.join? ·.kind) with
    | none => .ok (left, tokens)
    | some join => do
      let (right, after) ← atLevel fuel level.tighter (tokens.drop 1)
      operators fuel level (join left right) after

def suffixes : Nat → Expr → List Token → Except ParseError (Expr × List Token)
  | 0, _, _ => .error .exhausted
  | _ + 1, base, [] => .ok (base, [])
  | fuel + 1, base, token :: rest =>
    match token.kind with
    | .punct .lparen => do
      let (arguments, after) ← items fuel .rparen rest
      suffixes fuel (.call base arguments) after
    | .punct .lbracket => do
      let (position, after) ← atLevel fuel .disjunction rest
      let next ← expectPunct .rbracket after
      suffixes fuel (.index base position) next
    | .punct .dot => do
      let (name, after) ← expectName rest
      suffixes fuel (.member base name) after
    | _ => .ok (base, token :: rest)

/-- Expressions between commas up to a closing bracket; the last comma may be trailing. -/
def items : Nat → Punct → List Token → Except ParseError (List Expr × List Token)
  | 0, _, _ => .error .exhausted
  | fuel + 1, closing, tokens =>
    if startsWithPunct tokens closing then .ok ([], tokens.drop 1)
    else do
      let (first, rest) ← atLevel fuel .disjunction tokens
      if startsWithPunct rest .comma then do
        let (others, after) ← items fuel closing (rest.drop 1)
        pure (first :: others, after)
      else do
        let after ← expectPunct closing rest
        pure ([first], after)

def atom : Nat → List Token → Except ParseError (Expr × List Token)
  | 0, _ => .error .exhausted
  | _ + 1, [] => .error .unexpectedEnd
  | fuel + 1, token :: rest =>
    match token.kind with
    | .int value => .ok (.int value, rest)
    | .float value => .ok (.float value, rest)
    | .str text => .ok (.str text, rest)
    | .env name => .ok (.env name, rest)
    | .name text =>
      match constant? text with
      | some value => .ok (value, rest)
      | none =>
        if isKeyword text then .error (unexpected (token :: rest)) else .ok (.name text, rest)
    | .punct .lparen => do
      let (inner, after) ← atLevel fuel .disjunction rest
      let next ← expectPunct .rparen after
      pure (inner, next)
    | .punct .lbracket => do
      let (values, after) ← items fuel .rbracket rest
      pure (.list values, after)
    | .subprocess capture body => do
      let chain ← (readers.chain body.toList).mapError (·.relocate token.span.line)
      pure (.subprocess capture chain, rest)
    | _ => .error (unexpected (token :: rest))

end

end

def steps (count : Nat) : Nat :=
  16 * (count + 1)

def expression (readers : BodyReaders) (tokens : List Token) : Parsed Expr :=
  atLevel readers (steps tokens.length) .disjunction tokens

/-- Read a whole text as one expression; line ends in it do not count. -/
def readWith (readers : BodyReaders) (text : List Char) : Except ParseError Expr := do
  let tokens ← (Lexer.tokensFrom .start 0 text).mapError .lexical
  let (result, rest) ← expression readers (tokens.filter fun token => !token.kind.isNewline)
  match rest with
  | [] => pure result
  | _ :: _ => throw (unexpected rest)

end ExpressionReader

end HybridShell
