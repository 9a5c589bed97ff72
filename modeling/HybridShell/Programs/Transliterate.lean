import HybridShell.Programs.Escape
import HybridShell.Programs.Options
import HybridShell.Text.CharacterKind

/-!
# Replacing characters

Sets of characters are written as single characters, ranges, classes and
repetitions.  A character is replaced by the one at the same place of another
set, deleted, or kept only once where it is repeated.
-/

namespace HybridShell

namespace Programs

structure SetCharacter where
  character : Char
  escaped : Bool
  deriving Repr, DecidableEq

inductive SetItem where
  | range (first last : Char)
  | members (group : CharacterKind)
  /-- A character a number of times; without a number as often as needed. -/
  | repeated (character : Char) (count : Option Nat)
  deriving Repr, DecidableEq

namespace SetItem

def allCharacters : List Char :=
  (List.range 256).map Char.ofNat

def characters (needed : Nat) : SetItem → List Char
  | range first last => allCharacters.filter fun other => first ≤ other && other ≤ last
  | members group => allCharacters.filter group.contains
  | repeated character count => List.replicate (count.getD needed) character

def isRepeated : SetItem → Bool
  | repeated _ _ => true
  | _ => false

def fills : SetItem → Bool
  | repeated _ none => true
  | _ => false

def isOtherClass : SetItem → Bool
  | members group => group ≠ .upper && group ≠ .lower
  | _ => false

end SetItem

namespace WrittenSet

def unescape : Nat → List Char → List SetCharacter
  | 0, _ | _, [] => []
  | count + 1, '\\' :: first :: rest =>
    let octal := ((first :: rest).take 3).takeWhile Escape.isOctal
    if octal.isEmpty then
      let character := match Escape.letter? first with
        | some byte => if first = 'e' then first else Char.ofNat byte.toNat
        | none => first
      ⟨character, true⟩ :: unescape count rest
    else
      ⟨Char.ofNat (Escape.number 8 octal % 256), true⟩
        :: unescape count ((first :: rest).drop octal.length)
  | count + 1, character :: rest => ⟨character, false⟩ :: unescape count rest

def isMark (character : Char) (found : SetCharacter) : Bool :=
  !found.escaped && found.character = character

def text (characters : List SetCharacter) : String :=
  String.ofList (characters.map SetCharacter.character)

def upTo (mark : Char) : List SetCharacter → Option (List SetCharacter × List SetCharacter)
  | first :: second :: rest =>
    if isMark mark first && isMark ']' second then some ([], rest)
    else (upTo mark (second :: rest)).map fun (inside, after) => (first :: inside, after)
  | _ => none

def bracketed? (characters : List SetCharacter) :
    Option (Except String SetItem × List SetCharacter) :=
  match characters with
  | opening :: mark :: rest =>
    if !isMark '[' opening || mark.escaped then none
    else if mark.character = ':' then
      (upTo ':' rest).map fun (inside, after) =>
        match CharacterKind.ofName? (text inside) with
        | some group => (.ok (.members group), after)
        | none => (.error ("invalid character class '" ++ text inside ++ "'"), after)
    else if mark.character = '=' then
      (upTo '=' rest).map fun (inside, after) =>
        match inside with
        | [single] => (.ok (.range single.character single.character), after)
        | _ =>
          (.error
            (text inside ++ ": equivalence class operand must be a single character"), after)
    else none
  | _ => none

/-- The number of repetitions that a text stands for; nothing and zero mean as many as needed. -/
def repetitions (digits : List Char) : Except String (Option Nat) :=
  let isOctalNumber := digits.head? = some '0'
  if digits.all fun digit => if isOctalNumber then Escape.isOctal digit else digit.isDigit then
    let count := Escape.number (if isOctalNumber then 8 else 10) digits
    .ok (if count = 0 then none else some count)
  else .error ("invalid repeat count '" ++ String.ofList digits ++ "' in [c*n] construct")

def repeated? (characters : List SetCharacter) :
    Option (Except String SetItem × List SetCharacter) :=
  match characters with
  | opening :: character :: star :: rest =>
    let digits := rest.takeWhile (!isMark ']' ·)
    if !isMark '[' opening || !isMark '*' star || digits.length = rest.length then none
    else
      some ((repetitions (digits.map SetCharacter.character)).map
        (.repeated character.character), rest.drop (digits.length + 1))
  | _ => none

def firstItem (first : SetCharacter) (rest : List SetCharacter) :
    Except String SetItem × List SetCharacter :=
  match bracketed? (first :: rest), repeated? (first :: rest), rest with
  | some found, _, _ => found
  | none, some found, _ => found
  | none, none, dash :: last :: after =>
    if isMark '-' dash then
      if last.character < first.character then
        (.error
          ("range-endpoints of '" ++ text [first, dash, last]
            ++ "' are in reverse collating sequence order"), after)
      else (.ok (.range first.character last.character), after)
    else (.ok (.range first.character first.character), rest)
  | none, none, _ => (.ok (.range first.character first.character), rest)

def items : Nat → List SetCharacter → Except String (List SetItem)
  | 0, _ | _, [] => .ok []
  | count + 1, first :: rest => do
    let (item, after) := firstItem first rest
    return (← item) :: (← items count after)

/-- Read a set; every byte of it is a character. -/
def read (written : String) : Except String (List SetItem) :=
  let characters := charactersOf (Utf8.encode written)
  items (characters.length + 1) (unescape (characters.length + 1) characters)

def characters (needed : Nat) (set : List SetItem) : List Char :=
  let fixed := (set.map fun item => if item.fills then [] else item.characters 0).flatten.length
  set.flatMap (SetItem.characters (needed - fixed))

end WrittenSet

/-- What is done with characters: delete, replace by pairs, and keep once. -/
structure Transliteration where
  deleted : List Char
  pairs : List (Char × Char)
  squeezed : List Char
  deriving Repr, DecidableEq

namespace Transliteration

def replace (change : Transliteration) (character : Char) : Char :=
  ((change.pairs.find? (·.1 = character)).map Prod.snd).getD character

/-- Change characters, given the last one that was written; the result is in reverse order. -/
def apply (change : Transliteration) (before : Option Char) (characters : List Char) :
    List Char × Option Char :=
  characters.foldl
    (fun (written, last) character =>
      if change.deleted.contains character then (written, last)
      else
        let replaced := change.replace character
        if last = some replaced && change.squeezed.contains replaced then (written, last)
        else (replaced :: written, some replaced))
    ([], before)

def stretched (source target : List Char) : List Char :=
  target ++ List.replicate (source.length - target.length) (target.getLastD ' ')

/-- The pairs of two sets; a later pair of the same character counts. -/
def pairsOf (source target : List Char) : List (Char × Char) :=
  (source.zip target).reverse

def ofOptions (options : Options) : Except String Transliteration := do
  let complement (characters : List Char) : List Char :=
    if options.hasAny ['c', 'C'] then
      SetItem.allCharacters.filter (!characters.contains ·)
    else characters
  let readSource (written : String) : Except String (List Char) := do
    let set ← WrittenSet.read written
    if set.any SetItem.isRepeated then
      throw "the [c*] repeat construct may not appear in string1"
    return complement (WrittenSet.characters 0 set)
  match options.operands, options.has 'd', options.has 's' with
  | [first], true, _ => return ⟨← readSource first, [], []⟩
  | [first], false, _ => return ⟨[], [], ← readSource first⟩
  | first :: second :: _, true, _ =>
    let deleted ← readSource first
    return ⟨deleted, [], WrittenSet.characters 0 (← WrittenSet.read second)⟩
  | first :: second :: _, false, squeezes =>
    let source ← readSource first
    let set ← WrittenSet.read second
    if set.any SetItem.isOtherClass then
      throw ("when translating, the only character classes that may appear in\nstring2 are "
        ++ "'upper' and 'lower'")
    let target := WrittenSet.characters source.length set
    if target.isEmpty && !options.has 't' && !source.isEmpty then
      throw "when not truncating set1, string2 must be non-empty"
    let full := if options.has 't' then target else stretched source target
    return ⟨[], pairsOf source full, if squeezes then full else []⟩
  | [], _, _ => return ⟨[], [], []⟩

end Transliteration

def wrongOperands? (options : Options) : Option String :=
  match options.operands, options.has 'd', options.has 's' with
  | [], _, _ => some "missing operand"
  | [first], true, true =>
    some ("missing operand after '" ++ first
      ++ "'\nTwo strings must be given when both deleting and squeezing repeats.")
  | [first], false, false =>
    some ("missing operand after '" ++ first ++ "'\nTwo strings must be given when translating.")
  | [_, second], true, false =>
    some ("extra operand '" ++ second
      ++ "'\nOnly one string may be given when deleting without squeezing repeats.")
  | _ :: _ :: third :: _, _, _ => some ("extra operand '" ++ third ++ "'")
  | _, _, _ => none

def transliterateStream (change : Transliteration) : Nat → Option Char → Program Outcome
  | 0, _ => .exit 0
  | reads + 1, before =>
    .read .input .everything fun
      | none => .exit 0
      | some chunk =>
        let (written, last) := change.apply before (charactersOf chunk)
        .write .output (bytesOf written.reverse) fun _ =>
          transliterateStream change reads last

def trOptions : OptionRules where
  plain := ['c', 'C', 'd', 's', 't']
  words :=
    [("complement", 'c'), ("delete", 'd'), ("squeeze-repeats", 's'), ("truncate-set1", 't')]

def tr (context : ProcessContext) : Program Outcome :=
  Options.within trOptions context 1 fun options =>
    match wrongOperands? options, Transliteration.ofOptions options with
    | some problem, _ => .misused context problem 1
    | none, .error problem => giveUp context problem 1
    | none, .ok change => do
      match ← Program.openInput context "-" with
      | .error error =>
        complainAbout context "read error" error
        .exit 1
      | .ok _ => transliterateStream change Program.manyReads none

end Programs

end HybridShell
