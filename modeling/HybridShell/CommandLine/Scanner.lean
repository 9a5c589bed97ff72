import HybridShell.Grammar.Fault
import HybridShell.Text.Search
import HybridShell.Token.Lexer

/-!
# Dividing command text into words and operators

Words end at blanks and operators, quotes group characters, and `$`, `@` and
`~` start expansions.  Each step looks at one character and says how many of
the following ones it takes.
-/

namespace HybridShell

inductive CommandToken where
  | word (word : Word)
  | redirect (redirect : Redirect)
  | pipe
  | and
  | or
  | background

namespace CommandToken

def mark : CommandToken → CommandMark
  | word _ => .word
  | redirect _ => .redirect
  | pipe => .pipe
  | and => .and
  | or => .or
  | background => .background

/-- Whether the token is a word written without quotes or expansions as the given text. -/
def isBareWord (token : CommandToken) (expected : String) : Bool :=
  match token with
  | word [.literal text false] => text == expected
  | _ => false

end CommandToken

namespace CommandScanner

def isBoundary (character : Char) : Bool :=
  Text.isBlank character || ['|', '&', ';', '<', '>', '(', ')'].contains character

variable (readers : BodyReaders) (text : List Char)

def atBoundary : Bool :=
  text.head?.all isBoundary

structure Cursor where
  line : Nat
  rest : List Char

namespace Cursor

def advance (cursor : Cursor) (count : Nat) : Cursor :=
  { line := cursor.line + (cursor.rest.take count).count '\n'
    rest := cursor.rest.drop count }

def fault {α : Type} (cursor : Cursor) (fault : GrammarFault) : Except ParseError α :=
  .error (.malformed cursor.line fault)

end Cursor

/-- The number of characters in the blanks at the front, line continuations included. -/
def blankLength : List Char → Nat
  | '\\' :: '\n' :: rest => blankLength rest + 2
  | character :: rest => if Text.isBlank character then blankLength rest + 1 else 0
  | [] => 0

def skipBlanks (cursor : Cursor) : Cursor :=
  cursor.advance (blankLength cursor.rest)

/-- The name of a variable after `$`, and the characters it takes. -/
def variableName? : List Char → Option (List Char × Nat)
  | '{' :: rest =>
    let name := rest.takeWhile (· ≠ '}')
    if name.length < rest.length ∧ name ≠ [] ∧ name.all Lexer.isNameCharacter then
      some (name, name.length + 2)
    else none
  | text =>
    let name := text.takeWhile Lexer.isNameCharacter
    if name ≠ [] ∧ ¬ (name.head?.any Char.isDigit) then some (name, name.length) else none

/-- A part of a word before neighbouring characters are joined. -/
inductive WordAtom where
  | plain (character : Char)
  | quoted (character : Char)
  | part (part : WordPart)
  | divider

/-- Join neighbouring characters of one kind, with no divider between them, into literal parts. -/
def joinAtoms : List WordAtom → List WordPart
  | [] => []
  | .divider :: rest => joinAtoms rest
  | .part part :: rest => part :: joinAtoms rest
  | .plain character :: rest =>
    match joinAtoms rest, rest with
    | .literal text false :: parts, .plain _ :: _ =>
      .literal (String.singleton character ++ text) false :: parts
    | parts, _ => .literal (String.singleton character) false :: parts
  | .quoted character :: rest =>
    match joinAtoms rest, rest with
    | .literal text true :: parts, .quoted _ :: _ =>
      .literal (String.singleton character ++ text) true :: parts
    | parts, _ => .literal (String.singleton character) true :: parts

/-- The atoms of double-quoted text and the characters up to its closing quote. -/
def doubleQuoted : List Char → Option (List WordAtom × Nat)
  | [] => none
  | '"' :: _ => some ([], 1)
  | '\\' :: rest =>
    match rest with
    | '\n' :: after => (doubleQuoted after).map fun (atoms, taken) => (atoms, taken + 2)
    | escaped :: after =>
      if ['"', '\\', '$', '\x60'].contains escaped then
        (doubleQuoted after).map fun (atoms, taken) => (.quoted escaped :: atoms, taken + 2)
      else
        (doubleQuoted (escaped :: after)).map fun (atoms, taken) =>
          (.quoted '\\' :: atoms, taken + 1)
    | [] => none
  | '$' :: rest =>
    match variableName? rest with
    | some (name, length) =>
      (doubleQuoted (rest.drop length)).map fun (atoms, taken) =>
        (.part (.env (String.ofList name)) :: atoms, taken + length + 1)
    | none => (doubleQuoted rest).map fun (atoms, taken) => (.quoted '$' :: atoms, taken + 1)
  | character :: rest =>
    (doubleQuoted rest).map fun (atoms, taken) => (.quoted character :: atoms, taken + 1)
termination_by text => text.length
decreasing_by all_goals simp_all only [List.length_drop, List.length_cons]; omega

def body (cursor : Cursor) (opener : String) : Except ParseError (List Char × Nat) :=
  let text := cursor.rest.drop opener.length
  match Lexer.bodyLength '(' ')' .plain 0 text with
  | some length => .ok (text.take length, opener.length + length)
  | none => cursor.fault (.unterminatedBody opener)

/--
The atoms that start with `first`, and how many characters of `tail` they
take.  `atStart` says that the word has no atom yet.  Empty double quotes are
an empty text there, and elsewhere only divide the characters around them.
-/
def wordStep (atStart : Bool) (line : Nat) (first : Char) (tail : List Char) :
    Except ParseError (List WordAtom × Nat) :=
  let cursor : Cursor := ⟨line, first :: tail⟩
  match first, tail with
  | '\'', _ =>
    let text := tail.takeWhile (· ≠ '\'')
    if text.length < tail.length then
      .ok ([.part (.literal (String.ofList text) true)], text.length + 1)
    else cursor.fault .unterminatedString
  | '"', _ =>
    match doubleQuoted tail with
    | some (atoms, taken) =>
      if ¬ atoms.isEmpty then .ok ((joinAtoms atoms).map .part, taken)
      else .ok ([if atStart then .part (.literal "" true) else .divider], taken)
    | none => (cursor.advance (tail.length + 1)).fault .unterminatedString
  | '\\', [] => .ok ([], 0)
  | '\\', escaped :: _ => .ok ([.part (.literal (String.singleton escaped) true)], 1)
  | '$', '(' :: _ => do
    let (text, taken) ← body cursor "$("
    let chain ← readers.chain text
    .ok ([.part (.captured chain)], taken)
  | '$', _ =>
    match variableName? tail with
    | some (name, taken) => .ok ([.part (.env (String.ofList name))], taken)
    | none => .ok ([.plain '$'], 0)
  | '@', '$' :: '(' :: _ => do
    let (text, taken) ← body cursor "@$("
    let chain ← readers.chain text
    .ok ([.part (.splitCaptured chain)], taken)
  | '@', '(' :: _ => do
    let (text, taken) ← body cursor "@("
    let expression ← readers.expression text
    .ok ([.part (.splice expression)], taken)
  | '~', _ =>
    if atStart && (atBoundary tail || tail.head? == some '/') then .ok ([.part .tilde], 0)
    else .ok ([.plain '~'], 0)
  | _, _ => .ok ([.plain first], 0)

/-- The atoms of the word at the front of the text, and the number of characters they take. -/
def wordAtoms (readers : BodyReaders) (atStart : Bool) (line : Nat) :
    List Char → Except ParseError (List WordAtom × Nat)
  | [] => .ok ([], 0)
  | first :: tail =>
    if isBoundary first then .ok ([], 0)
    else
      match wordStep readers atStart line first tail with
      | .error error => .error error
      | .ok (atoms, taken) =>
        let passed := line + (first :: tail.take taken).count '\n'
        match wordAtoms readers (atStart && atoms.isEmpty) passed (tail.drop taken) with
        | .error error => .error error
        | .ok (others, length) => .ok (atoms ++ others, taken + 1 + length)
termination_by text => text.length
decreasing_by simp only [List.length_drop, List.length_cons]; omega

def word (cursor : Cursor) : Except ParseError (Word × Nat) :=
  (wordAtoms readers true cursor.line cursor.rest).map fun (atoms, length) =>
    (joinAtoms atoms, length)

/-- The streams that may be named before a redirection operator, longest first. -/
def redirectSources : List (String × Stream) :=
  [("err", .stderr), ("out", .stdout), ("all", .all), ("e", .stderr), ("o", .stdout),
    ("a", .all), ("1", .stdout), ("2", .stderr), ("&", .all), ("", .stdout)]

/-- A redirection operator: its stream, its mode, and the source's name and total length. -/
structure RedirectOperator where
  source : String
  stream : Stream
  mode : FileMode
  length : Nat

def operatorOf? (entry : String × Stream) : Option RedirectOperator :=
  let source := entry.1.toList
  if source.isPrefixOf text then
    match text.drop source.length with
    | '>' :: '>' :: _ => some ⟨entry.1, entry.2, .append, source.length + 2⟩
    | '>' :: _ => some ⟨entry.1, entry.2, .write, source.length + 1⟩
    | '<' :: _ => if source = [] then some ⟨entry.1, .stdin, .read, 1⟩ else none
    | _ => none
  else none

def redirectOperator? : Option RedirectOperator :=
  redirectSources.findSome? (operatorOf? text)

/-- What may follow a redirection operator in place of a file: the other output stream. -/
def duplicateTargets (operator : RedirectOperator) : List String :=
  let lettered := operator.source.toList.head?.any Char.isAlpha
  match operator.mode, operator.stream with
  | .write, .stderr => if lettered then ["&1", "out", "o"] else ["&1"]
  | .write, .stdout => if lettered then ["&2", "err", "e"] else ["&2"]
  | _, _ => []

/-- The length of the target that names the other output stream, if there is one. -/
def duplicateLength? (operator : RedirectOperator) (text : List Char) : Option Nat :=
  ((duplicateTargets operator).find? fun target =>
    target.toList.isPrefixOf text && atBoundary (text.drop target.length)).map String.length

def redirection (cursor : Cursor) (operator : RedirectOperator) :
    Except ParseError (Redirect × Nat) :=
  let after := cursor.advance operator.length
  match duplicateLength? operator after.rest with
  | some length =>
    .ok (if operator.stream = .stderr then .errToOut else .outToErr, operator.length + length)
  | none =>
    let blanks := blankLength after.rest
    let target := after.advance blanks
    if atBoundary target.rest then target.fault .missingRedirectTarget
    else
      (word readers target).map fun (name, length) =>
        (.file operator.stream operator.mode name, operator.length + blanks + length)

/-- The token at the front of non-blank text, and the number of characters it takes. -/
def tokenAt (cursor : Cursor) : Except ParseError (CommandToken × Nat) :=
  match cursor.rest, redirectOperator? cursor.rest with
  | '|' :: '|' :: _, _ => .ok (.or, 2)
  | '|' :: _, _ => .ok (.pipe, 1)
  | '&' :: '&' :: _, _ => .ok (.and, 2)
  | _, some operator =>
    (redirection readers cursor operator).map fun (redirect, length) =>
      (.redirect redirect, length)
  | '&' :: _, none => .ok (.background, 1)
  | ';' :: _, none => cursor.fault (.unexpectedSymbol ';')
  | '(' :: _, none => cursor.fault (.unexpectedSymbol '(')
  | ')' :: _, none => cursor.fault (.unexpectedSymbol ')')
  | _, none => (word readers cursor).map fun (parts, length) => (.word parts, length)

/-- All tokens of the text after a cursor; every step passes at least one character. -/
def tokensFrom (readers : BodyReaders) : Nat → Cursor → Except ParseError (List CommandToken)
  | 0, _ => .error .exhausted
  | fuel + 1, cursor =>
    let start := skipBlanks cursor
    if start.rest = [] then .ok []
    else
      match tokenAt readers start with
      | .error error => .error error
      | .ok (token, length) =>
        (tokensFrom readers fuel (start.advance length)).map (token :: ·)

def tokens : Except ParseError (List CommandToken) :=
  tokensFrom readers (text.length + 1) ⟨1, text⟩

end CommandScanner

end HybridShell
