import HybridShell.Programs.Script.Token

/-!
# The structure of scripts

Commands are joined by operators and held together by reserved words.  A
script is read line by line: what stands before a fault is still a script, and
the fault is its end.
-/

namespace HybridShell

structure ScriptRedirect where
  descriptor : Nat
  mode : ScriptMode
  target : ScriptWord
  deriving Repr, DecidableEq

inductive Script where
  | empty
  | simple (assignments : List (String × ScriptWord)) (words : List ScriptWord)
      (redirects : List ScriptRedirect)
  | located (line : Nat) (body : Script)
  | sequence (first second : Script)
  | both (first second : Script)
  | either (first second : Script)
  | not (body : Script)
  | pipe (left right : Script)
  | background (body : Script)
  | redirected (body : Script) (redirects : List ScriptRedirect)
  | subshell (body : Script)
  | branch (condition consequent alternative : Script)
  /-- Repeat the body for as long as the success of the condition is as expected. -/
  | loop (expected : Bool) (condition body : Script)
  | each (name : String) (words : Option (List ScriptWord)) (body : Script)
  | choose (subject : ScriptWord) (clauses : Script)
  | clause (patterns : List ScriptWord) (body others : Script)
  | function (name : String) (body : Script)
  | faulty (fault : ScriptFault)
  deriving Repr, DecidableEq

namespace Script

def unexpected (expected : Option String) : List ScriptToken → ScriptFault
  | [] => ⟨1, .unexpected "end of file" expected⟩
  | .broken fault :: _ => fault
  | token :: _ => ⟨token.line, .unexpected token.description expected⟩

def closers : List String :=
  ["then", "do", "done", "fi", "else", "elif", "esac", "\x7d", ")", ";;"]

variable (tokens : List ScriptToken)

def front? : Option String :=
  tokens.head?.bind ScriptToken.keyword?

def startsWithCloser : Bool :=
  (front? tokens).any closers.contains

def atEnd : List ScriptToken → Bool
  | [] | .finish _ :: _ => true
  | _ => false

def skipLineEnds : List ScriptToken → List ScriptToken
  | .lineEnd _ :: rest => skipLineEnds rest
  | tokens => tokens

abbrev Reader := StateT (List ScriptToken) (Except ScriptFault)

namespace Reader

def fail {α : Type} (expected : Option String) : Reader α := do
  throw (unexpected expected (← get))

def skipLines : Reader Unit :=
  modify skipLineEnds

def accept (text : String) : Reader Bool := do
  let found := front? (← get) = some text
  if found then modify List.tail
  return found

def expect (text : String) : Reader Unit := do
  if !(← accept text) then fail (some text)

end Reader

open Reader

def assignment? : ScriptWord → Option (String × ScriptWord)
  | .literal text false :: rest =>
    let characters := text.toList
    let name := characters.takeWhile ScriptToken.isNameCharacter
    match characters.drop name.length with
    | '=' :: value =>
      if ScriptToken.isName name then
        let front : ScriptWord :=
          if value.isEmpty then [] else [.literal (String.ofList value) false]
        some (String.ofList name, front ++ rest)
      else none
    | _ => none
  | _ => none

def readRedirects : List ScriptToken → Except ScriptFault (List ScriptRedirect × List ScriptToken)
  | .redirect descriptor mode _ :: .word target _ :: rest => do
    let (others, left) ← readRedirects rest
    .ok (⟨descriptor, mode, target⟩ :: others, left)
  | .redirect _ _ _ :: rest => .error (unexpected none rest)
  | .document descriptor parts _ :: rest => do
    let (others, left) ← readRedirects rest
    .ok (⟨descriptor, .document, parts⟩ :: others, left)
  | tokens => .ok ([], tokens)

structure Collected where
  assignments : List (String × ScriptWord)
  words : List ScriptWord
  redirects : List ScriptRedirect

def readSimple (collected : Collected) :
    List ScriptToken → Except ScriptFault (Collected × List ScriptToken)
  | .word parts _ :: rest =>
    match collected.words, assignment? parts with
    | [], some binding =>
      readSimple { collected with assignments := collected.assignments ++ [binding] } rest
    | words, _ => readSimple { collected with words := words ++ [parts] } rest
  | .redirect descriptor mode _ :: .word target _ :: rest =>
    readSimple
      { collected with redirects := collected.redirects ++ [⟨descriptor, mode, target⟩] } rest
  | .redirect _ _ _ :: rest => .error (unexpected none rest)
  | .document descriptor parts _ :: rest =>
    readSimple
      { collected with redirects := collected.redirects ++ [⟨descriptor, .document, parts⟩] }
      rest
  | tokens => .ok (collected, tokens)

def readWords : List ScriptToken → List ScriptWord × List ScriptToken
  | .word parts _ :: rest =>
    let (others, left) := readWords rest
    (parts :: others, left)
  | tokens => ([], tokens)

def readPatterns : List ScriptToken → Except ScriptFault (List ScriptWord × List ScriptToken)
  | .word parts _ :: .operator ")" _ :: rest => .ok ([parts], rest)
  | .word parts _ :: .operator "|" _ :: rest => do
    let (others, left) ← readPatterns rest
    .ok (parts :: others, left)
  | .word _ _ :: rest => .error (unexpected (some ")") rest)
  | tokens => .error (unexpected (some ")") tokens)

def readValues : Reader (Option (List ScriptWord)) := do
  skipLines
  if ← accept "in" then
    let (words, rest) := readWords (← get)
    set rest
    match rest with
    | .operator ";" _ :: left | .lineEnd _ :: left => set (skipLineEnds left)
    | _ => fail none
    return some words
  else
    if ← accept ";" then skipLines
    return none

def skipBracket : List ScriptToken → List ScriptToken
  | .operator "(" _ :: rest => rest
  | tokens => tokens

/-- The commands whose faults end the script, and whose names no function can have. -/
def specialNames : List String :=
  [":", ".", "break", "continue", "eval", "exec", "exit", "export", "readonly", "return", "set",
    "shift", "times", "trap", "unset"]

def isFunctionName (name : Option String) : Bool :=
  name.any fun text => ScriptToken.isName text.toList && !specialNames.contains text

def followed (first second : Script) : Script :=
  if second = .empty then first else .sequence first second

def readPlain (line : Nat) : Reader Script := do
  let collected ← (readSimple ⟨[], [], []⟩ : Reader Collected)
  return .located line (.simple collected.assignments collected.words collected.redirects)

mutual

/--
Read commands, of which there may be none, up to a closing word or the end; or
up to the end of the line, where one is enough.
-/
def readList : Nat → Bool → Reader Script
  | 0, _ => fail none
  | depth + 1, oneLine => do
    skipLines
    let start ← get
    if atEnd start || (!oneLine && startsWithCloser start) then return .empty
    else readSome depth oneLine

def readSome : Nat → Bool → Reader Script
  | 0, _ => fail none
  | depth + 1, oneLine => do
    let first ← readConditional depth
    if ← accept ";" then readMore depth oneLine first
    else if ← accept "&" then readMore depth oneLine (.background first)
    else
      match ← get with
      | .lineEnd _ :: after =>
        set after
        if oneLine then return first else readMore depth oneLine first
      | other => if oneLine && !atEnd other then fail none else return first

def readMore : Nat → Bool → Script → Reader Script
  | 0, _, _ => fail none
  | depth + 1, oneLine, first => do
    match oneLine, ← get with
    | true, .lineEnd _ :: after =>
      set after
      return first
    | _, _ => return followed first (← readList depth oneLine)

def readBody : Nat → Reader Script
  | 0 => fail none
  | depth + 1 => do
    skipLines
    if atEnd (← get) then return .empty else readSome depth false

def readConditional : Nat → Reader Script
  | 0 => fail none
  | depth + 1 => do readConditionalRest depth (← readPipeline depth)

def readConditionalRest : Nat → Script → Reader Script
  | 0, _ => fail none
  | depth + 1, first => do
    if ← accept "&&" then
      skipLines
      readConditionalRest depth (.both first (← readPipeline depth))
    else if ← accept "||" then
      skipLines
      readConditionalRest depth (.either first (← readPipeline depth))
    else return first

def readPipeline : Nat → Reader Script
  | 0 => fail none
  | depth + 1 => do
    if ← accept "!" then return .not (← readPipes depth) else readPipes depth

def readPipes : Nat → Reader Script
  | 0 => fail none
  | depth + 1 => do
    let first ← readCommand depth
    if ← accept "|" then
      skipLines
      return .pipe first (← readPipes depth)
    else return first

def readCommand : Nat → Reader Script
  | 0 => fail none
  | depth + 1 => do
    let tokens ← get
    let lineOf (tokens : List ScriptToken) : Nat := (tokens.head?.map ScriptToken.line).getD 1
    let line := lineOf tokens
    let compound (read : Reader Script) : Reader Script := do
      modify List.tail
      let body ← read
      let redirects ← (readRedirects : Reader (List ScriptRedirect))
      return .located line (if redirects.isEmpty then body else .redirected body redirects)
    match front? tokens, tokens with
    | some "\x7b", _ => compound do
      let body ← readBody depth
      expect "\x7d"
      return body
    | some "(", _ => compound do
      let body ← readBody depth
      expect ")"
      return .subshell body
    | some "if", _ => compound (readBranch depth)
    | some "while", _ => compound (readLoop depth true)
    | some "until", _ => compound (readLoop depth false)
    | some "for", _ => compound do
      let after ← get
      let name := (front? after).getD ""
      if !ScriptToken.isName name.toList then throw ⟨lineOf after, .badVariable⟩
      set after.tail
      let words ← readValues
      expect "do"
      let body ← readBody depth
      expect "done"
      return .each name words body
    | some "case", _ => compound do
      match ← get with
      | .word subject _ :: others =>
        set (skipLineEnds others)
        expect "in"
        skipLines
        return .choose subject (← readClauses depth)
      | _ => fail (some "word")
    | name, .word parts _ :: .operator "(" bracket :: others =>
      if (assignment? parts).isSome then
        throw (unexpected none (.operator "(" bracket :: others))
      set others
      expect ")"
      if !isFunctionName name then throw ⟨line, .badName⟩
      skipLines
      return .function (name.getD "") (← readCommand depth)
    | keyword, .word _ _ :: _ =>
      if keyword.any ScriptToken.reserved.contains then fail none else readPlain line
    | _, .redirect _ _ _ :: _ | _, .document _ _ _ :: _ => readPlain line
    | _, _ => fail none

def readBranch : Nat → Reader Script
  | 0 => fail none
  | depth + 1 => do
    let condition ← readBody depth
    expect "then"
    let consequent ← readBody depth
    if ← accept "elif" then return .branch condition consequent (← readBranch depth)
    else
      let alternative ← if ← accept "else" then readBody depth else pure .empty
      expect "fi"
      return .branch condition consequent alternative

def readLoop : Nat → Bool → Reader Script
  | 0, _ => fail none
  | depth + 1, expected => do
    let condition ← readBody depth
    expect "do"
    let body ← readBody depth
    expect "done"
    return .loop expected condition body

def readClauses : Nat → Reader Script
  | 0 => fail none
  | depth + 1 => do
    if ← accept "esac" then return .empty
    else
      modify skipBracket
      let patterns ← (readPatterns : Reader (List ScriptWord))
      let body ← readList depth false
      if ← accept "esac" then return .clause patterns body .empty
      else
        expect ";;"
        skipLines
        return .clause patterns body (← readClauses depth)

end

def readingDepth : Nat :=
  12 * (tokens.length + 1)

def words (line : Nat) : Script → List (Nat × ScriptWord)
  | empty | faulty _ => []
  | simple assignments given redirects =>
    (assignments.map Prod.snd ++ given ++ redirects.map ScriptRedirect.target).map (line, ·)
  | located own body => body.words own
  | sequence first second | both first second | either first second | pipe first second
  | loop _ first second => first.words line ++ second.words line
  | not body | background body | subshell body | function _ body => body.words line
  | redirected body redirects =>
    body.words line ++ redirects.map fun redirect => (line, redirect.target)
  | branch condition consequent alternative =>
    condition.words line ++ consequent.words line ++ alternative.words line
  | each _ values body => (values.getD []).map (line, ·) ++ body.words line
  | choose subject clauses => (line, subject) :: clauses.words line
  | clause patterns body others =>
    patterns.map (line, ·) ++ body.words line ++ others.words line

def substitutionFault? : Nat → Script → Option ScriptFault
  | 0, _ => none
  | depth + 1, script =>
    (script.words 1).findSome? fun (line, word) =>
      word.findSome? fun
        | .command text ownLines _ =>
          let tokens := ScriptToken.ofText (if ownLines then 1 else line) text
          let closed : List ScriptToken :=
            if ownLines then tokens
            else tokens.map fun
              | .finish last => .operator ")" last
              | token => token
          match readList (readingDepth closed) false closed with
          | .error fault => some fault
          | .ok (inner, rest) =>
            if atEnd rest || (!ownLines && rest.length = 1) then
              substitutionFault? depth inner
            else some (unexpected (if ownLines then none else some ")") rest)
        | _ => none

def readLines (depth : Nat) : Nat → List ScriptToken → Script
  | 0, _ => .empty
  | lines + 1, tokens =>
    let start := skipLineEnds tokens
    if atEnd start then .empty
    else
      match readList depth true start with
      | .error fault => .faulty fault
      | .ok (script, rest) =>
        match substitutionFault? depth script with
        | some fault => .faulty fault
        | none => followed script (readLines depth lines rest)

def ofText (line : Nat) (text : String) : Script :=
  let tokens := ScriptToken.ofText line text
  readLines (readingDepth tokens) (tokens.length + 1) tokens

end Script

end HybridShell
