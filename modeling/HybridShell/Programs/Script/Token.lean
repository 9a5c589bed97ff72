/-!
# Tokens of scripts

A word keeps what stands in quotes apart from what does not, and leaves the
text of a substitution for later.  What cannot be cut ends the tokens with its
fault.
-/

namespace HybridShell

inductive Fallback where
  | substitute
  | assign
  | demand
  | alternative
  deriving Repr, DecidableEq

inductive ParameterUse where
  | value
  | length
  /-- A fallback with its word; one for empty values too counts them as absent. -/
  | otherwise (fallback : Fallback) (emptyToo : Bool) (word : String)
  | trimmed (atEnd longest : Bool) (pattern : String)
  | malformed
  deriving Repr, DecidableEq

inductive ScriptPart where
  | literal (text : String) (quoted : Bool)
  | parameter (name : String) (use : ParameterUse) (quoted : Bool)
  | command (script : String) (ownLines quoted : Bool)
  | arithmetic (expression : String) (quoted : Bool)
  deriving Repr, DecidableEq

namespace ScriptPart

def isQuoted : ScriptPart → Bool
  | literal _ quoted | parameter _ _ quoted | command _ _ quoted | arithmetic _ quoted => quoted

end ScriptPart

abbrev ScriptWord := List ScriptPart

inductive ScriptMode where
  | read
  | write
  | append
  | duplicate
  | document
  deriving Repr, DecidableEq

inductive ScriptProblem where
  | unexpected (found : String) (expected : Option String)
  | openQuote
  | openBackquote
  | openBraces
  | openFormula
  | badVariable
  | badName
  deriving Repr, DecidableEq

namespace ScriptProblem

def description : ScriptProblem → String
  | unexpected found none => found ++ " unexpected"
  | unexpected found (some expected) => found ++ " unexpected (expecting \"" ++ expected ++ "\")"
  | openQuote => "Unterminated quoted string"
  | openBackquote => "EOF in backquote substitution"
  | openBraces => "Missing '\x7d'"
  | openFormula => "Missing '))'"
  | badVariable => "Bad for loop variable"
  | badName => "Bad function name"

def message (problem : ScriptProblem) : String :=
  "Syntax error: " ++ problem.description

end ScriptProblem

structure ScriptFault where
  line : Nat
  problem : ScriptProblem
  deriving Repr, DecidableEq

/-- A token of a script, with the line on which it ends. -/
inductive ScriptToken where
  | word (parts : ScriptWord) (line : Nat)
  | operator (text : String) (line : Nat)
  | redirect (descriptor : Nat) (mode : ScriptMode) (line : Nat)
  | document (descriptor : Nat) (parts : ScriptWord) (line : Nat)
  | lineEnd (line : Nat)
  | finish (line : Nat)
  | broken (fault : ScriptFault)
  deriving Repr, DecidableEq

namespace ScriptToken

variable (character : Char)

def endsWord : Bool :=
  [' ', '\t', '\n', ';', '&', '|', '<', '>', '(', ')'].contains character

def isNameCharacter : Bool :=
  character.isAlphanum || character = '_'

def isName (name : List Char) : Bool :=
  !name.isEmpty && name.all isNameCharacter && !name.head?.any Char.isDigit

def isSpecialParameter : Bool :=
  character.isDigit || ['@', '*', '#', '?', '$', '!', '-'].contains character

inductive Surrounding where
  | single
  | double
  | backquote
  | bracket
  | formula
  | braces (quoted : Bool)
  deriving Repr, DecidableEq

namespace Surrounding

def closer : Surrounding → Char
  | single => '\''
  | double => '"'
  | backquote => '\x60'
  | bracket | formula => ')'
  | braces _ => '\x7d'

def opened? (outer : Surrounding) (character : Char) : Option Surrounding :=
  match outer, character with
  | .single, _ | .backquote, _ => none
  | .bracket, '(' => some .bracket
  | .bracket, '\'' | .braces false, '\'' => some .single
  | .bracket, '"' | .braces _, '"' => some .double
  | _, '\x60' => some .backquote
  | _, _ => none

def quotes : Surrounding → Bool
  | double => true
  | braces quoted => quoted
  | _ => false

/-- What a dollar sign and a character open. -/
def substituted? (outer : Surrounding) (character : Char) : Option Surrounding :=
  match outer, character with
  | .single, _ | .backquote, _ => none
  | _, '(' => some .bracket
  | _, '\x7b' => some (.braces outer.quotes)
  | _, _ => none

def problem : Surrounding → ScriptProblem
  | single | double | braces true => .openQuote
  | backquote => .openBackquote
  | bracket => .unexpected "end of file" (some ")")
  | formula => .openFormula
  | braces false => .openBraces

end Surrounding

abbrev TextCut := Except ScriptProblem (List Char × List Char)

abbrev WordCut := Except ScriptProblem (ScriptWord × List Char)

def past (front : List Char) (found : TextCut) : TextCut :=
  found.map fun (inside, after) => (front ++ inside, after)

/-- The text up to where all of some surroundings, the innermost first, are closed. -/
def enclosed : List Surrounding → List Char → TextCut
  | [], rest => .ok ([], rest)
  | top :: outer, [] => .error (if outer.contains .formula then .openFormula else top.problem)
  | top :: outer, '\\' :: escaped :: rest =>
    if top = .single then past ['\\'] (enclosed (top :: outer) (escaped :: rest))
    else past ['\\', escaped] (enclosed (top :: outer) rest)
  | top :: outer, '$' :: opener :: rest =>
    match top.substituted? opener with
    | some inner => past ['$', opener] (enclosed (inner :: top :: outer) rest)
    | none => past ['$'] (enclosed (top :: outer) (opener :: rest))
  | top :: outer, character :: rest =>
    if character = top.closer then
      if outer.isEmpty then .ok ([], rest) else past [character] (enclosed outer rest)
    else past [character] (enclosed ((top.opened? character).toList ++ top :: outer) rest)
termination_by _ text => text.length

def unescapeBackquoted : List Char → List Char
  | '\\' :: escaped :: rest =>
    if ['$', '\x60', '\\'].contains escaped then escaped :: unescapeBackquoted rest
    else '\\' :: escaped :: unescapeBackquoted rest
  | character :: rest => character :: unescapeBackquoted rest
  | [] => []

def fallback? : Char → Option Fallback
  | '-' => some .substitute
  | '=' => some .assign
  | '?' => some .demand
  | '+' => some .alternative
  | _ => none

def useOf (text : List Char) : ParameterUse :=
  let otherwise (emptyToo : Bool) (sign : Char) (text : List Char) : ParameterUse :=
    match fallback? sign with
    | some fallback => .otherwise fallback emptyToo (String.ofList text)
    | none => .malformed
  match text with
  | [] => .value
  | '%' :: '%' :: pattern => .trimmed true true (String.ofList pattern)
  | '%' :: pattern => .trimmed true false (String.ofList pattern)
  | '#' :: '#' :: pattern => .trimmed false true (String.ofList pattern)
  | '#' :: pattern => .trimmed false false (String.ofList pattern)
  | ':' :: sign :: rest => otherwise true sign rest
  | sign :: rest => otherwise false sign rest

def nameLength : List Char → Nat
  | [] => 0
  | first :: rest =>
    if first.isDigit then ((first :: rest).takeWhile Char.isDigit).length
    else if isSpecialParameter first then 1
    else ((first :: rest).takeWhile isNameCharacter).length

def bracedParameter (inside : List Char) (quoted : Bool) : ScriptPart :=
  let plain (text : List Char) : ScriptPart :=
    let length := nameLength text
    .parameter (String.ofList (text.take length))
      (if length = 0 then .malformed else useOf (text.drop length)) quoted
  match inside with
  | '#' :: first :: rest =>
    if nameLength (first :: rest) = rest.length + 1 then
      .parameter (String.ofList (first :: rest)) .length quoted
    else plain inside
  | _ => plain inside

def within (surroundings : List Surrounding) (part : List Char → ScriptPart) (text : List Char) :
    WordCut :=
  (enclosed surroundings text).map fun (inside, after) => ([part inside], after)

def substitution (quoted : Bool) : List Char → WordCut
  | '(' :: '(' :: rest =>
    within [.bracket, .formula]
      (fun inside => .arithmetic (String.ofList inside.dropLast) quoted) rest
  | '(' :: rest => within [.bracket] (fun inside => .command (String.ofList inside) false quoted) rest
  | '\x7b' :: rest => within [.braces quoted] (bracedParameter · quoted) rest
  | text =>
    let length := if text.head?.any isSpecialParameter then 1
      else (text.takeWhile isNameCharacter).length
    if length = 0 then .ok ([.literal "$" quoted], text)
    else .ok ([.parameter (String.ofList (text.take length)) .value quoted], text.drop length)

def single (quoted : Bool) : ScriptPart :=
  .literal (String.singleton character) quoted

/-- What is read alike within quotes and outside: substitutions and joined lines. -/
def common? (quoted : Bool) : List Char → Option WordCut
  | '$' :: rest => some (substitution quoted rest)
  | '\x60' :: rest =>
    some (within [.backquote]
      (fun inside => .command (String.ofList (unescapeBackquoted inside)) true quoted) rest)
  | '\\' :: '\n' :: rest => some (.ok ([], rest))
  | ['\\'] => some (.ok ([single '\\' true], []))
  | _ => none

def plainPart (isPlain : Char → Bool) (quoted : Bool) (text : List Char) : WordCut :=
  let plain := text.takeWhile isPlain
  .ok ([.literal (String.ofList plain) quoted], text.drop plain.length)

/--
Read the parts of a quoted text up to a closing quote, or to the end when
there is none to find, for a number of parts at most.
-/
def quotedParts (closing : Option Char) : Nat → List Char → WordCut
  | 0, _ => .error .openQuote
  | _, [] => if closing.isNone then .ok ([], []) else .error .openQuote
  | parts + 1, character :: rest =>
    let isKept (other : Char) : Bool :=
      ['$', '\x60', '\\'].contains other || some other = closing
    if some character = closing then .ok ([], rest)
    else do
      let (first, after) ← (common? true (character :: rest)).getD (
        match character, rest with
        | '\\', escaped :: left =>
          if isKept escaped then .ok ([single escaped true], left)
          else .ok ([single '\\' true], rest)
        | _, _ => plainPart (!isKept ·) true (character :: rest))
      let (others, left) ← quotedParts closing parts after
      .ok (first ++ others, left)

/-- Whether a character of a word stands for itself; in a loose word blanks and operators do. -/
def isPlain (loose : Bool) (character : Char) : Bool :=
  (loose || !endsWord character) && !(['\'', '"', '$', '\x60', '\\'].contains character)

def wordParts (loose : Bool) : Nat → List Char → WordCut
  | 0, text => .ok ([], text)
  | _, [] => .ok ([], [])
  | parts + 1, character :: rest =>
    if !loose && endsWord character then .ok ([], character :: rest)
    else do
      let (first, after) ← (common? false (character :: rest)).getD (
        match character, rest with
        | '\'', _ => within [.single] (fun inside => .literal (String.ofList inside) true) rest
        | '"', _ =>
          (quotedParts (some '"') (rest.length + 1) rest).map fun (inside, left) =>
            (if inside.isEmpty then [.literal "" true] else inside, left)
        | '\\', escaped :: left => .ok ([single escaped true], left)
        | _, _ => plainPart (isPlain loose) false (character :: rest))
      let (others, left) ← wordParts loose parts after
      .ok (first ++ others, left)

def partsOr (text : String) : WordCut → ScriptWord
  | .ok (parts, _) => parts
  | .error _ => [.literal text true]

def looseWord (text : String) : ScriptWord :=
  partsOr text (wordParts true (text.length + 1) text.toList)

def quotedWord (text : String) : ScriptWord :=
  partsOr text (quotedParts none (text.length + 1) text.toList)

/-- The signs of redirections, longer ones first, with the streams and modes they mean. -/
def redirectSigns : List (String × Nat × ScriptMode) :=
  [(">>", 1, .append), (">&", 1, .duplicate), (">|", 1, .write), (">", 1, .write),
    ("<&", 0, .duplicate), ("<>", 0, .append), ("<", 0, .read)]

def redirect? (line : Nat) (descriptor : Option Nat) (text : List Char) :
    Option (ScriptToken × List Char) := do
  let (sign, usual, mode) ← redirectSigns.find? fun (sign, _) => sign.toList.isPrefixOf text
  some (.redirect (descriptor.getD usual) mode line, text.drop sign.length)

def operators : List String :=
  ["&&", "||", ";;", "&", "|", ";", "(", ")"]

def operator? (line : Nat) (text : List Char) : Option (ScriptToken × List Char) := do
  let sign ← operators.find? fun sign => sign.toList.isPrefixOf text
  some (.operator sign line, text.drop sign.length)

/-- The descriptor that is written before a redirection, and the text from there. -/
def numbered : List Char → Option Nat × List Char
  | [] => (none, [])
  | digit :: rest =>
    if digit.isDigit then (some (digit.toNat - '0'.toNat), rest) else (none, digit :: rest)

structure PendingDocument where
  line : Nat
  descriptor : Nat
  ending : List Char
  withoutTabs : Bool
  expands : Bool

/-- The start of a text below the line: its descriptor, and whether tabs are left out. -/
def documentStart? (text : List Char) : Option (Nat × Bool × List Char) :=
  let (descriptor, rest) := numbered text
  match rest with
  | '<' :: '<' :: '-' :: after => some (descriptor.getD 0, true, after)
  | '<' :: '<' :: after => some (descriptor.getD 0, false, after)
  | _ => none

def bareText : ScriptWord → String
  | .literal text _ :: rest => text ++ bareText rest
  | .parameter name _ _ :: rest => "$" ++ name ++ bareText rest
  | .command script _ _ :: rest => "$(" ++ script ++ ")" ++ bareText rest
  | .arithmetic expression _ :: rest => "$((" ++ expression ++ "))" ++ bareText rest
  | [] => ""

/-- The lines of a document up to its ending, and the text after it, for some lines at most. -/
def documentLines (pending : PendingDocument) : Nat → List Char → List Char × List Char
  | 0, text => ([], text)
  | _, [] => ([], [])
  | lines + 1, text =>
    let line := text.takeWhile (· ≠ '\n')
    let after := text.drop (line.length + 1)
    let shown := if pending.withoutTabs then line.dropWhile (· = '\t') else line
    if shown = pending.ending then ([], after)
    else
      let (others, left) := documentLines pending lines after
      (shown ++ (text.drop line.length).take 1 ++ others, left)

def documentToken (pending : PendingDocument) (body : List Char) : ScriptToken :=
  let text := String.ofList body
  .document pending.descriptor
    (if pending.expands then quotedWord text else [.literal text true]) pending.line

def readDocuments : List PendingDocument → List Char → List ScriptToken × List Char
  | [], text => ([], text)
  | pending :: rest, text =>
    let (body, after) := documentLines pending (text.length + 1) text
    let (others, left) := readDocuments rest after
    (documentToken pending body :: others, left)

def leading (token : ScriptToken) (found : List ScriptToken × List ScriptToken) :
    List ScriptToken × List ScriptToken :=
  (token :: found.1, found.2)

/--
Cut a script into tokens, for a number of tokens at most.  Documents come out
apart, in the order in which they are announced.
-/
def scan (line : Nat) (pending : List PendingDocument) :
    Nat → List Char → List ScriptToken × List ScriptToken
  | 0, _ => ([.finish line], [])
  | _, [] => ([.finish line], (readDocuments pending.reverse []).1)
  | count + 1, character :: rest =>
    let all := character :: rest
    let broken (left : List Char) (problem : ScriptProblem) :
        List ScriptToken × List ScriptToken :=
      ([.broken ⟨line + left.count '\n', problem⟩], [])
    if character = ' ' || character = '\t' then scan line pending count rest
    else if character = '\n' then
      let (found, after) := readDocuments pending.reverse rest
      let passed := (rest.take (rest.length - after.length)).count '\n'
      let (tokens, documents) := scan (line + 1 + passed) [] count after
      (.lineEnd (line + 1) :: tokens, found ++ documents)
    else if character = '\\' && rest.head? = some '\n' then
      scan (line + 1) pending count rest.tail
    else if character = '#' then
      scan line pending count (rest.dropWhile (· ≠ '\n'))
    else
      match documentStart? all with
      | some (descriptor, withoutTabs, after) =>
        match wordParts false (after.length + 1)
            (after.dropWhile fun c => c = ' ' || c = '\t') with
        | .error problem => broken all problem
        | .ok ([], left) =>
          leading (.redirect descriptor .read line) (scan line pending count left)
        | .ok (ending, left) =>
          let announced : PendingDocument :=
            ⟨line, descriptor, (bareText ending).toList, withoutTabs, !ending.any ScriptPart.isQuoted⟩
          leading (.document descriptor [] line) (scan line (announced :: pending) count left)
      | none =>
        let (descriptor, marks) := numbered all
        match (redirect? line descriptor marks).or (operator? line all) with
        | some (token, after) => leading token (scan line pending count after)
        | none =>
          match wordParts false (rest.length + 2) all with
          | .error problem => broken all problem
          | .ok (parts, after) =>
            let last := line + (all.take (rest.length + 1 - after.length)).count '\n'
            leading (.word parts last) (scan last pending count after)

def attach : List ScriptToken → List ScriptToken → List ScriptToken
  | [], _ => []
  | .document descriptor parts line :: rest, documents =>
    documents.headD (.document descriptor parts line) :: attach rest documents.tail
  | token :: rest, documents => token :: attach rest documents

def ofText (line : Nat) (text : String) : List ScriptToken :=
  let (tokens, documents) := scan line [] (text.length + 1) text.toList
  attach tokens documents

def plainText? : ScriptWord → Option String
  | [] => some ""
  | .literal text false :: rest => (plainText? rest).map (text ++ ·)
  | _ => none

def keyword? : ScriptToken → Option String
  | .word parts _ => plainText? parts
  | .operator text _ => some text
  | _ => none

def reserved : List String :=
  ["!", "case", "do", "done", "elif", "else", "esac", "fi", "for", "if", "in", "then", "until",
    "while", "\x7b", "\x7d"]

def description : ScriptToken → String
  | .word parts _ =>
    match plainText? parts with
    | some text => if reserved.contains text then "\"" ++ text ++ "\"" else "word"
    | none => "word"
  | .operator text _ => "\"" ++ text ++ "\""
  | .redirect _ _ _ | .document _ _ _ => "redirection"
  | .lineEnd _ => "newline"
  | .finish _ | .broken _ => "end of file"

def line : ScriptToken → Nat
  | .word _ line | .operator _ line | .redirect _ _ line | .document _ _ line | .lineEnd line
  | .finish line => line
  | .broken fault => fault.line

end ScriptToken

end HybridShell
