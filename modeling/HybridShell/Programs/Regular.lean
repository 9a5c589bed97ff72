import HybridShell.Number.Reading
import HybridShell.Programs.Context
import HybridShell.Text.CharacterKind

/-!
# Regular expressions

The text is divided into tokens, which is where the basic and the extended way
of writing differ, and the tokens are put together with a stack of open groups.
Matching gives all places at which a match can end.
-/

namespace HybridShell

inductive Assertion where
  | lineStart
  | lineEnd
  | wordStart
  | wordEnd
  | wordEdge
  | noWordEdge
  deriving Repr, DecidableEq

inductive Regular where
  | nothing
  | one (set : CharacterSet)
  | assertion (kind : Assertion)
  | sequence (first second : Regular)
  | choice (first second : Regular)
  | repeated (body : Regular) (least : Nat) (most : Option Nat)
  | group (number : Nat) (body : Regular)
  | reference (number : Nat)
  deriving Repr, DecidableEq

inductive RegularFault where
  | openBracket
  | openGroup
  | openBraces
  | strayClosing
  | badBraces
  | tooBig
  | badRange
  | badClass
  | bareClass
  | badReference
  | trailingBackslash
  deriving Repr, DecidableEq

namespace RegularFault

def message : RegularFault → String
  | openBracket => "Unmatched [, [^, [:, [., or [="
  | openGroup => "Unmatched ( or \\("
  | openBraces => "Unmatched \\\x7b"
  | strayClosing => "Unmatched ) or \\)"
  | badBraces => "Invalid content of \\\x7b\\\x7d"
  | tooBig => "Regular expression too big"
  | badRange => "Invalid range end"
  | badClass => "Invalid character class name"
  | bareClass => "character class syntax is [[:space:]], not [:space:]"
  | badReference => "Invalid back reference"
  | trailingBackslash => "Trailing backslash"

end RegularFault

inductive RegularToken where
  | one (set : CharacterSet)
  | assertion (kind : Assertion)
  | repetition (least : Nat) (most : Option Nat)
  | opening
  | closing
  | alternative
  | reference (number : Nat)
  deriving Repr, DecidableEq

namespace RegularToken

def literal (character : Char) : RegularToken :=
  one (.single character)

def wordParts : List SetPart :=
  [.members .alnum, .range '_' '_']

def upTo (mark : Char) : List Char → Option (List Char × List Char)
  | first :: second :: rest =>
    if first = mark && second = ']' then some ([], rest)
    else (upTo mark (second :: rest)).map fun (inside, after) => (first :: inside, after)
  | _ => none

def bracketEnd (first : Char) (rest : List Char) : Except RegularFault (Char × List Char) :=
  match first, rest with
  | '[', mark :: others =>
    if mark = '.' || mark = '=' then
      match upTo mark others with
      | some ([character], after) => .ok (character, after)
      | _ => .error .openBracket
    else .ok (first, rest)
  | _, _ => .ok (first, rest)

def bracketParts (isFirst : Bool) : Nat → List Char →
    Except RegularFault (List SetPart × List Char)
  | 0, _ | _, [] => .error .openBracket
  | count + 1, '[' :: ':' :: rest =>
    match upTo ':' rest with
    | none => .error .openBracket
    | some (name, after) =>
      match CharacterKind.ofName? (String.ofList name) with
      | none => .error .badClass
      | some group =>
        (bracketParts false count after).map fun (parts, left) =>
          (.members group :: parts, left)
  | count + 1, character :: rest => do
    if character = ']' && !isFirst then return ([], rest)
    let (first, after) ← bracketEnd character rest
    let (final, following) ← match after with
      | '-' :: last :: others =>
        if last = ']' then pure (first, after) else bracketEnd last others
      | _ => pure (first, after)
    if final < first then throw .badRange
    let (parts, left) ← bracketParts false count following
    return (.range first final :: parts, left)

variable (text : List Char)

def isBareClass : Bool :=
  let inside := text.takeWhile (· ≠ ']')
  inside.length < text.length && 2 < inside.length && inside.head? = some ':'
    && inside.getLast? = some ':'

def bracket : Except RegularFault (RegularToken × List Char) :=
  if isBareClass text then .error .bareClass
  else
    let (negated, listed) := match text with
      | '^' :: rest => (true, rest)
      | other => (false, other)
    (bracketParts true (listed.length + 1) listed).map fun (parts, after) =>
      (.one ⟨parts, negated⟩, after)

def mostRepetitions : Nat := 32767

/-- The repetition that a text between braces stands for; nothing when it is none. -/
def bounds? : Option (Except RegularFault RegularToken) :=
  let least := text.takeWhile Char.isDigit
  let bounded (low : Nat) (high : Option Nat) : Except RegularFault RegularToken :=
    if high.any (· < low) then .error .badBraces
    else if mostRepetitions < high.getD low then .error .tooBig
    else .ok (.repetition low high)
  match Reading.natural? least, text.drop least.length with
  | some count, [] => some (bounded count (some count))
  | low, ',' :: digits =>
    if digits.isEmpty then some (bounded (low.getD 0) none)
    else (Reading.natural? digits).map fun high => bounded (low.getD 0) (some high)
  | _, _ => none

def basicBraces : Except RegularFault (RegularToken × List Char) :=
  let inside := text.takeWhile (· ≠ '\\')
  match text.drop inside.length with
  | '\\' :: '\x7d' :: after =>
    match bounds? inside with
    | some token => token.map fun read => (read, after)
    | none => .error .badBraces
  | '\\' :: _ :: _ => .error .badBraces
  | _ => .error .openBraces

/-- Read a character behind a backslash that means the same in both ways of writing. -/
def escaped (character : Char) : RegularToken :=
  match character with
  | 'w' => .one ⟨wordParts, false⟩
  | 'W' => .one ⟨wordParts, true⟩
  | 's' => .one ⟨[.members .space], false⟩
  | 'S' => .one ⟨[.members .space], true⟩
  | '<' => .assertion .wordStart
  | '>' => .assertion .wordEnd
  | 'b' => .assertion .wordEdge
  | 'B' => .assertion .noWordEdge
  | '\x60' => .assertion .lineStart
  | '\'' => .assertion .lineEnd
  | other =>
    if '1' ≤ other && other ≤ '9' then .reference (other.toNat - '0'.toNat) else literal other

def isAtStart : Option RegularToken → Bool
  | none | some .opening | some .alternative => true
  | _ => false

def endsBasic (rest : List Char) : Bool :=
  match rest with
  | [] => true
  | '\\' :: mark :: _ => mark = ')' || mark = '|'
  | _ => false

def nextBasic (before : Option RegularToken) (character : Char) (rest : List Char) :
    Except RegularFault (RegularToken × List Char) :=
  let first := isAtStart before || before = some (.assertion .lineStart)
  match character, rest with
  | '\\', [] => .error .trailingBackslash
  | '\\', '(' :: after => .ok (.opening, after)
  | '\\', ')' :: after => .ok (.closing, after)
  | '\\', '|' :: after => .ok (.alternative, after)
  | '\\', '+' :: after => .ok (if first then literal '+' else .repetition 1 none, after)
  | '\\', '?' :: after => .ok (if first then literal '?' else .repetition 0 (some 1), after)
  | '\\', '\x7b' :: after => if first then .ok (literal '\x7b', after) else basicBraces after
  | '\\', other :: after => .ok (escaped other, after)
  | '*', _ => .ok (if first then literal '*' else .repetition 0 none, rest)
  | '^', _ => .ok (if isAtStart before then .assertion .lineStart else literal '^', rest)
  | '$', _ => .ok (if endsBasic rest then .assertion .lineEnd else literal '$', rest)
  | '.', _ => .ok (.one .everything, rest)
  | '[', _ => bracket rest
  | other, _ => .ok (literal other, rest)

/-- Read the first token of an extended expression; `depth` groups are open. -/
def nextExtended (depth : Nat) (character : Char) (rest : List Char) :
    Except RegularFault (RegularToken × List Char) :=
  match character, rest with
  | '\\', [] => .error .trailingBackslash
  | '\\', other :: after => .ok (escaped other, after)
  | '(', _ => .ok (.opening, rest)
  | ')', _ => .ok (if depth = 0 then literal ')' else .closing, rest)
  | '|', _ => .ok (.alternative, rest)
  | '*', _ => .ok (.repetition 0 none, rest)
  | '+', _ => .ok (.repetition 1 none, rest)
  | '?', _ => .ok (.repetition 0 (some 1), rest)
  | '\x7b', _ =>
    let inside := rest.takeWhile (· ≠ '\x7d')
    match bounds? inside, rest.drop inside.length with
    | some token, _ :: after => token.map fun read => (read, after)
    | _, _ => .ok (literal '\x7b', rest)
  | '^', _ => .ok (.assertion .lineStart, rest)
  | '$', _ => .ok (.assertion .lineEnd, rest)
  | '.', _ => .ok (.one .everything, rest)
  | '[', _ => bracket rest
  | other, _ => .ok (literal other, rest)

def depthAfter (depth : Nat) : RegularToken → Nat
  | opening => depth + 1
  | closing => depth - 1
  | _ => depth

def readAll (extended : Bool) (depth : Nat) (before : Option RegularToken) :
    Nat → List Char → Except RegularFault (List RegularToken)
  | 0, _ | _, [] => .ok []
  | count + 1, character :: rest => do
    let (token, after) ←
      if extended then nextExtended depth character rest else nextBasic before character rest
    return token :: (← readAll extended (token.depthAfter depth) (some token) count after)

end RegularToken

structure OpenGroup where
  number : Nat
  alternatives : Option Regular
  parts : List Regular
  deriving Repr, DecidableEq

namespace OpenGroup

def start (number : Nat) : OpenGroup :=
  ⟨number, none, []⟩

variable (group : OpenGroup)

def latest : Regular :=
  group.parts.foldl
    (fun rest part => if rest = .nothing then part else .sequence part rest) .nothing

def whole : Regular :=
  match group.alternatives with
  | none => group.latest
  | some others => .choice others group.latest

def add (part : Regular) : OpenGroup :=
  { group with parts := part :: group.parts }

def repeatLast (least : Nat) (most : Option Nat) : OpenGroup :=
  match group.parts with
  | [] => group.add (.repeated .nothing least most)
  | part :: rest => { group with parts := .repeated part least most :: rest }

end OpenGroup

namespace Regular

structure Reading where
  current : OpenGroup
  enclosing : List OpenGroup
  groups : Nat
  closed : List Nat

def Reading.step (reading : Reading) : RegularToken → Except RegularFault Reading
  | .one set => .ok { reading with current := reading.current.add (.one set) }
  | .assertion kind => .ok { reading with current := reading.current.add (.assertion kind) }
  | .repetition least most =>
    .ok { reading with current := reading.current.repeatLast least most }
  | .opening =>
    .ok { reading with
      current := .start (reading.groups + 1)
      enclosing := reading.current :: reading.enclosing
      groups := reading.groups + 1 }
  | .closing =>
    match reading.enclosing with
    | [] => .error .strayClosing
    | outer :: others =>
      let number := reading.current.number
      .ok { reading with
        current := outer.add (.group number reading.current.whole)
        enclosing := others
        closed := number :: reading.closed }
  | .alternative =>
    .ok { reading with
      current :=
        { reading.current with alternatives := some reading.current.whole, parts := [] } }
  | .reference number =>
    if reading.closed.contains number then
      .ok { reading with current := reading.current.add (.reference number) }
    else .error .badReference

def keepGroups (kept : List Nat) : Regular → Regular
  | sequence first second => sequence (first.keepGroups kept) (second.keepGroups kept)
  | choice first second => choice (first.keepGroups kept) (second.keepGroups kept)
  | repeated body least most => repeated (body.keepGroups kept) least most
  | group number body =>
    if kept.contains number then group number (body.keepGroups kept) else body.keepGroups kept
  | other => other

/-- Read an expression; groups to which nothing refers are not kept. -/
def read (extended : Bool) (text : List Char) : Except RegularFault Regular := do
  let tokens ← RegularToken.readAll extended 0 none (text.length + 1) text
  let reading ← tokens.foldlM Reading.step ⟨.start 0, [], 0, []⟩
  if !reading.enclosing.isEmpty then throw .openGroup
  let referred := tokens.filterMap fun
    | .reference number => some number
    | _ => none
  return reading.current.whole.keepGroups referred

def ofText (text : List Char) : Regular :=
  text.foldr (fun character rest => .sequence (.one (.single character)) rest) .nothing

structure Place where
  offset : Nat
  before : Option Char
  rest : List Char
  groups : List (Nat × List Char)
  deriving Repr, DecidableEq

namespace Place

def start (line : List Char) : Place :=
  ⟨0, none, line, []⟩

variable (place : Place)

def advance (count : Nat) : Place :=
  let taken := place.rest.take count
  { place with
    offset := place.offset + taken.length
    before := taken.getLast?.or place.before
    rest := place.rest.drop count }

def isSame (left right : Place) : Bool :=
  left.offset = right.offset && left.groups = right.groups

def newOnes (known : List Place) : List Place → List Place
  | [] => []
  | place :: rest =>
    if known.any place.isSame then newOnes known rest
    else place :: newOnes (place :: known) rest

def isWordCharacter (character : Char) : Bool :=
  character.isAlphanum || character = '_'

def isAfterWord : Bool :=
  place.before.any isWordCharacter

def isBeforeWord : Bool :=
  place.rest.head?.any isWordCharacter

def fulfils : Assertion → Bool
  | .lineStart => place.before.isNone
  | .lineEnd => place.rest.isEmpty
  | .wordStart => !place.isAfterWord && place.isBeforeWord
  | .wordEnd => place.isAfterWord && !place.isBeforeWord
  | .wordEdge => place.isAfterWord != place.isBeforeWord
  | .noWordEdge => place.isAfterWord == place.isBeforeWord

def reach (step : Place → List Place) : Nat → List Place → List Place → List Place
  | 0, known, _ => known
  | steps + 1, known, latest =>
    let fresh := newOnes known (latest.flatMap step)
    if fresh.isEmpty then known else reach step steps (known ++ fresh) fresh

def afterSteps (step : Place → List Place) : Nat → List Place → List Place
  | 0, places => places
  | steps + 1, places => afterSteps step steps (newOnes [] (places.flatMap step))

end Place

def ends (ignoresCase : Bool) : Regular → Place → List Place
  | nothing, place => [place]
  | one set, place =>
    match place.rest with
    | [] => []
    | character :: _ =>
      let found := if ignoresCase then set.containsEither character else set.contains character
      if found then [place.advance 1] else []
  | assertion kind, place => if place.fulfils kind then [place] else []
  | sequence first second, place =>
    Place.newOnes [] ((ends ignoresCase first place).flatMap (ends ignoresCase second))
  | choice first second, place =>
    Place.newOnes [] (ends ignoresCase first place ++ ends ignoresCase second place)
  | repeated body least most, place =>
    let required := Place.afterSteps (ends ignoresCase body) least [place]
    let steps := most.elim (place.rest.length + 1) (· - least)
    Place.reach (ends ignoresCase body) steps required required
  | group number body, place =>
    (ends ignoresCase body place).map fun final =>
      let matched := place.rest.take (final.offset - place.offset)
      { final with groups := (number, matched) :: final.groups.filter (·.1 ≠ number) }
  | reference number, place =>
    match place.groups.find? (·.1 = number) with
    | none => []
    | some (_, text) =>
      let fold (characters : List Char) : List Char :=
        if ignoresCase then characters.map Char.toLower else characters
      if fold (place.rest.take text.length) = fold text then [place.advance text.length]
      else []

end Regular

end HybridShell
