import HybridShell.Expression.Nested
import HybridShell.Unit.Statement

/-!
# Reading units

A statement without a keyword runs to the end of its line, a semicolon or the
closing brace of its block, whichever comes first outside brackets; that
stretch is read twice.
-/

namespace HybridShell

namespace UnitReader

def isSeparator (token : Token) : Bool :=
  token.kind.isNewline || token.kind.isPunct .semi

def atStatementEnd (tokens : List Token) : Bool :=
  tokens.head?.all fun token => isSeparator token || token.kind.isPunct .rbrace

def bracketChange : TokenKind → Int
  | .punct .lparen | .punct .lbracket | .punct .lbrace => 1
  | .punct .rparen | .punct .rbracket | .punct .rbrace => -1
  | _ => 0

def endsStatement (depth : Int) (token : Token) : Bool :=
  depth ≤ 0 && (isSeparator token || token.kind.isPunct .rbrace)

def statementLength (depth : Int) : List Token → Nat
  | [] => 0
  | token :: rest =>
    if endsStatement depth token then 0
    else statementLength (depth + bracketChange token.kind) rest + 1

def target? : Expr → Option Target
  | .name name => some (.name name)
  | .env name => some (.env name)
  | .index base position => some (.index base position)
  | _ => none

def hostReading (readers : BodyReaders) (tokens : List Token) :
    Except ParseError SimpleStatement := do
  let line := (tokens.head?.map (·.span.line)).getD 1
  let (left, rest) ← ExpressionReader.expression readers tokens
  let (statement, after) ←
    if startsWithPunct rest .assign then
      match target? left with
      | some target => do
        let (value, after) ← ExpressionReader.expression readers (rest.drop 1)
        pure (SimpleStatement.assign target value, after)
      | none => throw (.malformed line .cannotAssign)
    else pure (SimpleStatement.expression left, rest)
  match after with
  | [] => pure statement
  | _ :: _ => throw (unexpected after)

def spanOf (first : Token) (others : List Token) : Span :=
  { first.span with stop := ((first :: others).getLast (by simp)).span.stop }

def readings (source : List Char) (readers : BodyReaders) (first : Token)
    (others : List Token) : Readings :=
  let span := spanOf first others
  { host := (hostReading readers (first :: others)).map .simple
    command :=
      ((parseChain (String.ofList (Text.slice source span.start span.stop))).mapError
        (·.relocate span.line)).map fun chain => .simple (.commandLine chain)
    span := span }

/-- The names of parameters up to the closing parenthesis; the last comma may be trailing. -/
def parameters : List Token → Except ParseError (List String × List Token)
  | [] => .error .unexpectedEnd
  | token :: rest =>
    if token.kind.isPunct .rparen then .ok ([], rest)
    else do
      let (name, _) ← expectName (token :: rest)
      match rest with
      | [] => throw .unexpectedEnd
      | comma :: after =>
        if comma.kind.isPunct .comma then do
          let (names, final) ← parameters after
          pure (name :: names, final)
        else do
          let final ← expectPunct .rparen rest
          pure ([name], final)

def keywordAlone (statement : Statement) (rest : List Token) : Parsed Statement :=
  if atStatementEnd rest then .ok (statement, rest) else .error (unexpected rest)

section

variable (source : List Char) (readers : BodyReaders)

mutual

/-- The statements up to the end of the tokens, or of the block that holds them. -/
def statements : Nat → Bool → List Token → Except ParseError (List Statement × List Token)
  | 0, _, _ => .error .exhausted
  | fuel + 1, inBlock, tokens =>
    match tokens.dropWhile isSeparator with
    | [] => if inBlock then .error .unexpectedEnd else .ok ([], [])
    | token :: rest =>
      if token.kind.isPunct .rbrace then
        if inBlock then .ok ([], token :: rest) else .error (unexpected (token :: rest))
      else do
        let (first, after) ← statement fuel token rest
        let (others, final) ← statements fuel inBlock after
        pure (first :: others, final)

def block : Nat → List Token → Except ParseError (List Statement × List Token)
  | 0, _ => .error .exhausted
  | fuel + 1, tokens => do
    let rest ← expectPunct .lbrace tokens
    let (body, after) ← statements fuel true rest
    let final ← expectPunct .rbrace after
    pure (body, final)

def guarded : Nat → List Token → Except ParseError ((Expr × List Statement) × List Token)
  | 0, _ => .error .exhausted
  | fuel + 1, tokens => do
    let (condition, rest) ← ExpressionReader.expression readers tokens
    let (body, after) ← block fuel rest
    pure ((condition, body), after)

def alternatives : Nat → List Token → Except ParseError (Alternatives × List Token)
  | 0, _ => .error .exhausted
  | fuel + 1, tokens =>
    let next := tokens.dropWhile (·.kind.isNewline)
    if startsWithWord next "elif" then do
      let ((condition, body), after) ← guarded fuel (next.drop 1)
      let (rest, final) ← alternatives fuel after
      pure (.branch condition body rest, final)
    else if startsWithWord next "else" then do
      let (body, after) ← block fuel (next.drop 1)
      pure (.otherwise body, after)
    else .ok (.none, tokens)

def statement : Nat → Token → List Token → Except ParseError (Statement × List Token)
  | 0, _, _ => .error .exhausted
  | fuel + 1, first, rest =>
    match first.kind with
    | .name "if" => do
      let ((condition, body), after) ← guarded fuel rest
      let (others, final) ← alternatives fuel after
      pure (.conditional (.branch condition body others), final)
    | .name "while" => do
      let ((condition, body), after) ← guarded fuel rest
      pure (.whileLoop condition body, after)
    | .name "for" => do
      let (name, after) ← expectName rest
      if startsWithWord after "in" then do
        let ((items, body), final) ← guarded fuel (after.drop 1)
        pure (.forLoop name items body, final)
      else .error (unexpected after)
    | .name "def" => do
      let (name, after) ← expectName rest
      let inside ← expectPunct .lparen after
      let (names, next) ← parameters inside
      let (body, final) ← block fuel next
      pure (.define first.span.start name names body, final)
    | .name "return" =>
      if atStatementEnd rest then .ok (.returnValue none, rest)
      else do
        let (value, after) ← ExpressionReader.expression readers rest
        pure (.returnValue (some value), after)
    | .name "break" => keywordAlone .breakLoop rest
    | .name "continue" => keywordAlone .continueLoop rest
    | .name "pass" => keywordAlone .pass rest
    | kind =>
      let length := statementLength (bracketChange kind) rest
      .ok (.undecided (readings source readers first (rest.take length)), rest.drop length)

end

end

def steps (count : Nat) : Nat :=
  4 * (count + 1)

end UnitReader

/-- Read source text as a unit; its simple statements keep both readings. -/
def parseUnit (source : String) : Except ParseError (List Statement) := do
  let text := source.toList
  let tokens ← (lex source).mapError .lexical
  let (unit, _) ←
    UnitReader.statements text (.forText text) (UnitReader.steps tokens.length) false tokens
  pure unit

end HybridShell
