import HybridShell.Number.Reading
import HybridShell.Token.Basic

/-!
# Dividing source text into tokens

The lexer looks at one character and what follows it, and says how many of
the following characters belong to the same piece: a token, or a gap between
tokens.  Positions are carried beside the text and count its bytes.
-/

namespace HybridShell

namespace Text

def byteSize : List Char → Nat
  | [] => 0
  | character :: rest => character.utf8Size + byteSize rest

/-- The text after the first bytes; a character that is cut is dropped whole. -/
def dropBytes : Nat → List Char → List Char
  | _, [] => []
  | count, character :: rest =>
    if count = 0 then character :: rest else dropBytes (count - character.utf8Size) rest

/-- The text of the first bytes; a character that is cut is kept whole. -/
def takeBytes : Nat → List Char → List Char
  | _, [] => []
  | count, character :: rest =>
    if count = 0 then [] else character :: takeBytes (count - character.utf8Size) rest

def slice (text : List Char) (start stop : Nat) : List Char :=
  takeBytes (stop - start) (dropBytes start text)

end Text

/-- A place in source text: bytes before it, and its line counted from one. -/
structure Position where
  offset : Nat
  line : Nat
  deriving Repr, DecidableEq

namespace Position

def start : Position :=
  ⟨0, 1⟩

def past (position : Position) (characters : List Char) : Position :=
  { offset := position.offset + Text.byteSize characters
    line := position.line + characters.count '\n' }

end Position

namespace Lexer

def isNameStart (character : Char) : Bool :=
  character.isAlpha || character == '_'

def isNameCharacter (character : Char) : Bool :=
  character.isAlphanum || character == '_'

def unescape : Char → List Char
  | 'n' => ['\n']
  | 't' => ['\t']
  | 'r' => ['\r']
  | '0' => ['\x00']
  | '\\' => ['\\']
  | '\'' => ['\'']
  | '"' => ['"']
  | '\n' => []
  | other => ['\\', other]

/-- The text of a string and the number of characters up to its closing quote. -/
def stringBody (quote : Char) : List Char → Option (List Char × Nat)
  | [] => none
  | ['\\'] => none
  | '\\' :: escaped :: rest =>
    (stringBody quote rest).map fun (text, taken) => (unescape escaped ++ text, taken + 2)
  | character :: rest =>
    if character = quote then some ([], 1)
    else (stringBody quote rest).map fun (text, taken) => (character :: text, taken + 1)

inductive Quoting where
  | plain
  | single
  | double
  deriving Repr, DecidableEq

/--
The number of characters before the bracket that closes a body.  Brackets
inside quotes and after a backslash do not count.
-/
def bodyLength (opening closing : Char) : Quoting → Nat → List Char → Option Nat
  | _, _, [] => none
  | .single, depth, character :: rest =>
    (bodyLength opening closing (if character = '\'' then .plain else .single) depth rest).map
      (· + 1)
  | _, _, ['\\'] => none
  | quoting, depth, '\\' :: _ :: rest =>
    (bodyLength opening closing quoting depth rest).map (· + 2)
  | .double, depth, character :: rest =>
    (bodyLength opening closing (if character = '"' then .plain else .double) depth rest).map
      (· + 1)
  | .plain, depth, character :: rest =>
    if character = '\'' then (bodyLength opening closing .single depth rest).map (· + 1)
    else if character = '"' then (bodyLength opening closing .double depth rest).map (· + 1)
    else if character = opening then
      (bodyLength opening closing .plain (depth + 1) rest).map (· + 1)
    else if character = closing then
      match depth with
      | 0 => some 0
      | depth + 1 => (bodyLength opening closing .plain depth rest).map (· + 1)
    else (bodyLength opening closing .plain depth rest).map (· + 1)

def closingOf (opening : Char) : Char :=
  if opening = '(' then ')' else ']'

def captureOf? : Char → Char → Option Capture
  | '$', '(' => some .stdout
  | '!', '(' => some .object
  | '$', '[' => some .uncaptured
  | '!', '[' => some .hidden
  | _, _ => none

def pairPunct? : Char → Char → Option Punct
  | '/', '/' => some .slashSlash
  | '=', '=' => some .eq
  | '!', '=' => some .ne
  | '<', '=' => some .le
  | '>', '=' => some .ge
  | _, _ => none

def singlePunct? : Char → Option Punct
  | '(' => some .lparen
  | ')' => some .rparen
  | '[' => some .lbracket
  | ']' => some .rbracket
  | '{' => some .lbrace
  | '}' => some .rbrace
  | ',' => some .comma
  | '.' => some .dot
  | ';' => some .semi
  | '=' => some .assign
  | '<' => some .lt
  | '>' => some .gt
  | '+' => some .plus
  | '-' => some .minus
  | '*' => some .star
  | '/' => some .slash
  | '%' => some .percent
  | _ => none

variable (first : Char)

/-- A number that starts with the given digit, and the digits taken after it. -/
def number (tail : List Char) : Except LexFault (TokenKind × Nat) :=
  let whole := tail.takeWhile Char.isDigit
  let fraction : List Char :=
    match tail.drop whole.length with
    | '.' :: rest => rest.takeWhile Char.isDigit
    | _ => []
  if fraction = [] then
    let digits := first :: whole
    match Reading.word64? digits with
    | some value => .ok (.int value, whole.length)
    | none => .error (.numberOutOfRange (String.ofList digits))
  else
    let digits := first :: whole ++ fraction
    .ok (.float (Reading.nearest (Reading.digitsValue digits) (-(fraction.length : Int))),
      whole.length + 1 + fraction.length)

/-- The name of an environment variable after `$`, and the characters it takes. -/
def variableName? : List Char → Option (List Char × Nat)
  | '{' :: rest =>
    let name := rest.takeWhile isNameCharacter
    if (name.head?.any isNameStart) && (rest.drop name.length).head? == some '}' then
      some (name, name.length + 2)
    else none
  | text =>
    let name := text.takeWhile isNameCharacter
    if name.head?.any isNameStart then some (name, name.length) else none

def symbol (tail : List Char) : TokenKind × Nat :=
  match tail.head?.bind (pairPunct? first) with
  | some punct => (.punct punct, 1)
  | none =>
    match singlePunct? first with
    | some punct => (.punct punct, 0)
    | none => (.unknown first, 0)

def token (tail : List Char) : Except LexFault (TokenKind × Nat) :=
  if first = '"' ∨ first = '\'' then
    match stringBody first tail with
    | some (text, taken) => .ok (.str (String.ofList text), taken)
    | none => .error .unterminatedString
  else
    match tail.head?.bind (captureOf? first), tail with
    | some capture, opening :: body =>
      match bodyLength opening (closingOf opening) .plain 0 body with
      | some length =>
        .ok (.subprocess capture (String.ofList (body.take length)), length + 2)
      | none => .error (.unterminatedSubprocess capture)
    | _, _ =>
      if first.isDigit then number first tail
      else if isNameStart first then
        let rest := tail.takeWhile isNameCharacter
        .ok (.name (String.ofList (first :: rest)), rest.length)
      else
        match first == '$', variableName? tail with
        | true, some (name, taken) => .ok (.env (String.ofList name), taken)
        | _, _ => .ok (symbol first tail)

/--
The piece of text that starts with `first`: a token or a gap, and how many
characters of `tail` it takes.
-/
def piece (tail : List Char) : Except LexFault (Option TokenKind × Nat) :=
  if first = ' ' ∨ first = '\t' ∨ first = '\r' then .ok (none, 0)
  else if first = '\\' ∧ tail.head? = some '\n' then .ok (none, 1)
  else if first = '#' then .ok (none, (tail.takeWhile (· ≠ '\n')).length)
  else if first = '\n' then .ok (some .newline, 0)
  else (token first tail).map fun (kind, taken) => (some kind, taken)

/-- Divide the text after a position; line ends inside brackets are gaps. -/
def tokensFrom (position : Position) (depth : Nat) : List Char → Except LexError (List Token)
  | [] => .ok []
  | first :: tail =>
    match piece first tail with
    | .error fault => .error ⟨position.line, fault⟩
    | .ok (found, taken) =>
      let next := position.past (first :: tail.take taken)
      match found with
      | none => tokensFrom next depth (tail.drop taken)
      | some kind =>
        match tokensFrom next (kind.depthAfter depth) (tail.drop taken) with
        | .error error => .error error
        | .ok tokens =>
          if kind.isNewline && depth ≠ 0 then .ok tokens
          else .ok (⟨kind, ⟨position.offset, next.offset, position.line⟩⟩ :: tokens)
termination_by text => text.length
decreasing_by all_goals simp only [List.length_drop, List.length_cons]; omega

end Lexer

def lex (source : String) : Except LexError (List Token) :=
  Lexer.tokensFrom .start 0 source.toList

end HybridShell
