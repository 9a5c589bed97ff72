import HybridShell.Number.Reading
import HybridShell.Programs.Options
import HybridShell.Text.CharacterKind

/-!
# Sorting lines

Lines are compared by keys, each a part of the line with an order of its own.
Lines that no key tells apart are compared as a whole.
-/

namespace HybridShell

namespace Programs

structure KeyOrder where
  numeric : Bool
  folded : Bool
  dictionary : Bool
  printable : Bool
  reversed : Bool
  deriving Repr, DecidableEq

namespace KeyOrder

def ofLetters (letters : List Char) : KeyOrder :=
  { numeric := letters.contains 'n'
    folded := letters.contains 'f'
    dictionary := letters.contains 'd'
    printable := letters.contains 'i'
    reversed := letters.contains 'r' }

def leadingNumber (text : List Char) : Int :=
  let (negative, unsigned) := match text.dropWhile CharacterKind.blank.contains with
    | '-' :: rest => (true, rest)
    | other => (false, other)
  let whole := unsigned.takeWhile Char.isDigit
  let places := match unsigned.drop whole.length with
    | '.' :: rest => rest.takeWhile Char.isDigit
    | _ => []
  let scaled := (places ++ List.replicate 20 '0').take 20
  let value : Int := Reading.digitsValue (whole ++ scaled)
  if negative then -value else value

def textOrder : List Char → List Char → Ordering
  | [], [] => .eq
  | [], _ :: _ => .lt
  | _ :: _, [] => .gt
  | left :: lefts, right :: rights =>
    match compare left.toNat right.toNat with
    | .eq => textOrder lefts rights
    | other => other

def reduced (order : KeyOrder) (text : List Char) : List Char :=
  let kept := text.filter fun character =>
    (!order.dictionary || CharacterKind.blank.contains character
        || CharacterKind.alnum.contains character)
      && (!order.printable || CharacterKind.isPrintable character)
  if order.folded then kept.map Char.toUpper else kept

def compareTexts (order : KeyOrder) (left right : List Char) : Ordering :=
  let ascending :=
    if order.numeric then compare (leadingNumber left) (leadingNumber right)
    else textOrder (order.reduced left) (order.reduced right)
  if order.reversed then ascending.swap else ascending

end KeyOrder

structure KeyPlace where
  fields : Nat
  characters : Nat
  skipsBlanks : Bool
  deriving Repr, DecidableEq

namespace KeyPlace

def dropFields (divider : Option Char) (keepsLast : Bool) : Nat → List Char → List Char
  | 0, text => text
  | count + 1, text =>
    match divider with
    | some mark =>
      let rest := text.dropWhile (· ≠ mark)
      dropFields divider keepsLast count
        (if count = 0 && keepsLast then rest else rest.drop 1)
    | none =>
      dropFields divider keepsLast count
        ((text.dropWhile CharacterKind.blank.contains).dropWhile
          (!CharacterKind.blank.contains ·))

variable (place : KeyPlace)

def dropBlanks (text : List Char) : List Char :=
  if place.skipsBlanks then text.dropWhile CharacterKind.blank.contains else text

def afterStart (divider : Option Char) (text : List Char) : List Char :=
  (place.dropBlanks (dropFields divider false place.fields text)).drop place.characters

def afterEnd (divider : Option Char) (text : List Char) : List Char :=
  if place.characters = 0 then dropFields divider true (place.fields + 1) text
  else (place.dropBlanks (dropFields divider false place.fields text)).drop place.characters

end KeyPlace

structure SortKey where
  start : KeyPlace
  finish : Option KeyPlace
  order : KeyOrder
  deriving Repr, DecidableEq

namespace SortKey

def part (key : SortKey) (divider : Option Char) (line : List Char) : List Char :=
  let rest := key.start.afterStart divider line
  match key.finish with
  | none => rest
  | some place => rest.take (rest.length - (place.afterEnd divider line).length)

def orderLetters : List Char := ['b', 'd', 'f', 'i', 'n', 'r']

def number? (text : List Char) : Option (Nat × List Char) :=
  let digits := text.takeWhile Char.isDigit
  (Reading.natural? digits).map fun value => (value, text.drop digits.length)

def readPlace (spec : String) (text : List Char) (problem : String) :
    Except String (Nat × Nat × List Char × List Char) :=
  let invalid (reason : String) : Except String (Nat × Nat × List Char × List Char) :=
    .error (reason ++ ": invalid field specification '" ++ spec ++ "'")
  let withLetters (field character : Nat) (rest : List Char) :
      Except String (Nat × Nat × List Char × List Char) :=
    let letters := rest.takeWhile orderLetters.contains
    .ok (field, character, letters, rest.drop letters.length)
  match number? text with
  | none => .error (problem ++ ": invalid count at start of '" ++ String.ofList text ++ "'")
  | some (0, _) => invalid "field number is zero"
  | some (field, '.' :: rest) =>
    match number? rest with
    | none =>
      .error ("invalid number after '.': invalid count at start of '" ++ String.ofList rest
        ++ "'")
    | some (character, after) => withLetters field character after
  | some (field, rest) => withLetters field 0 rest

/-- Read a key; without letters of its own it takes those of the whole plan. -/
def read (common : List Char) (spec : String) : Except String SortKey := do
  let invalid (reason : String) : Except String SortKey :=
    .error (reason ++ ": invalid field specification '" ++ spec ++ "'")
  let (field, character, letters, rest) ←
    readPlace spec spec.toList "invalid number at field start"
  let pointed := (spec.toList.takeWhile (· ≠ ',')).contains '.'
  if pointed && character = 0 then invalid "character offset is zero"
  else
    match rest with
    | [] =>
      let used := if letters.isEmpty then common else letters
      .ok ⟨⟨field - 1, character - 1, used.contains 'b'⟩, none, .ofLetters used⟩
    | ',' :: ending => do
      let (lastField, lastCharacter, lastLetters, left) ←
        readPlace spec ending "invalid number after ','"
      if !left.isEmpty then invalid "stray character in field spec"
      else
        let own := letters ++ lastLetters
        let used := if own.isEmpty then common else own
        .ok
          ⟨⟨field - 1, character - 1, (if own.isEmpty then common else letters).contains 'b'⟩,
            some ⟨lastField - 1, lastCharacter,
              (if own.isEmpty then common else lastLetters).contains 'b'⟩,
            .ofLetters used⟩
    | _ => invalid "stray character in field spec"

def whole (letters : List Char) : SortKey :=
  ⟨⟨0, 0, letters.contains 'b'⟩, none, .ofLetters letters⟩

end SortKey

structure SortPlan where
  keys : List SortKey
  divider : Option Char
  reversed : Bool
  stable : Bool
  unique : Bool
  deriving Repr, DecidableEq

namespace SortPlan

def readDivider (text : String) : Except String Char :=
  match text.toList with
  | [] => .error "empty tab"
  | [mark] => .ok mark
  | ['\\', '0'] => .ok '\x00'
  | _ => .error ("multi-character tab '" ++ text ++ "'")

def ofOptions (options : Options) : Except String SortPlan := do
  let letters := SortKey.orderLetters.filter options.has
  let keys ← (options.values 'k').mapM (SortKey.read letters)
  let divider ← match options.value? 't' with
    | none => pure none
    | some text => some <$> readDivider text
  let general := letters.filter (· ≠ 'r')
  return {
    keys := if keys.isEmpty && !general.isEmpty then [.whole letters] else keys
    divider
    reversed := options.has 'r'
    stable := options.has 's'
    unique := options.has 'u' }

variable (plan : SortPlan)

def compareKeys (left right : List Char) : Ordering :=
  plan.keys.foldl
    (fun known key =>
      known.then
        (key.order.compareTexts (key.part plan.divider left) (key.part plan.divider right)))
    .eq

def compareLines (left right : List Char) : Ordering :=
  let whole : Ordering :=
    if !plan.keys.isEmpty && (plan.stable || plan.unique) then .eq
    else
      let ascending := KeyOrder.textOrder left right
      if plan.reversed then ascending.swap else ascending
  (plan.compareKeys left right).then whole

def withoutRepeats (plan : SortPlan) (before : Option (List Char)) :
    List (List Char) → List (List Char)
  | [] => []
  | line :: rest =>
    if before.any fun kept => plan.compareLines kept line = .eq then
      plan.withoutRepeats before rest
    else line :: plan.withoutRepeats (some line) rest

def sorted (lines : List (List Char)) : List (List Char) :=
  let ordered := lines.mergeSort fun left right => plan.compareLines left right != .gt
  if plan.unique then plan.withoutRepeats none ordered else ordered

def disorder? (plan : SortPlan) (number : Nat) : List (List Char) → Option (Nat × List Char)
  | first :: second :: rest =>
    let order := plan.compareLines first second
    if order = .gt || (plan.unique && order = .eq) then some (number + 1, second)
    else plan.disorder? (number + 1) (second :: rest)
  | _ => none

end SortPlan

def readLines (context : ProcessContext) :
    List String → Program (Except (String × SystemError) (List (List Char)))
  | [] => .done (.ok [])
  | name :: rest => do
    match ← Program.readInput context name with
    | .error error => .done (.error (name, error))
    | .ok bytes =>
      match ← readLines context rest with
      | .error problem => .done (.error problem)
      | .ok lines =>
        .done (.ok ((byteLines bytes).map (fun line => charactersOf (lineText line))
          ++ lines))

def sortOptions : OptionRules where
  plain := ['b', 'd', 'f', 'i', 'n', 'r', 's', 'u', 'c', 'C', 'm']
  valued := ['k', 't', 'o']
  words :=
    [("ignore-leading-blanks", 'b'), ("dictionary-order", 'd'), ("ignore-case", 'f'),
      ("ignore-nonprinting", 'i'), ("numeric-sort", 'n'), ("reverse", 'r'), ("stable", 's'),
      ("unique", 'u'), ("check", 'c'), ("merge", 'm'), ("key", 'k'), ("field-separator", 't'),
      ("output", 'o')]

variable (context : ProcessContext)

def deliverSorted (target : Option String) (bytes : Bytes) : Program Outcome :=
  match target with
  | none => .write .output bytes fun _ => .exit 0
  | some name =>
    .openFile (context.path name) .write fun
      | .error error => do
        complainAbout context ("open failed: " ++ name) error
        .exit 2
      | .ok sink => .write sink bytes fun _ => .exit 0

def checkSorted (plan : SortPlan) (quiet : Bool) (name : String) (lines : List (List Char)) :
    Program Outcome :=
  match plan.disorder? 1 lines with
  | none => .exit 0
  | some (number, line) =>
    if quiet then .exit 1
    else
      .write .error
        (Utf8.encode (context.name ++ ": " ++ name ++ ":" ++ toString number ++ ": disorder: ")
          ++ bytesOf line ++ [10])
        fun _ => .exit 1

def sort : Program Outcome :=
  Options.within sortOptions context 2 fun options =>
    match SortPlan.ofOptions options with
    | .error problem => giveUp context problem 2
    | .ok plan => do
      let names := Program.inputNames options.operands
      let checks := options.hasAny ['c', 'C']
      match checks, names with
      | true, _ :: second :: _ =>
        giveUp context
          ("extra operand '" ++ second ++ "' not allowed with -"
            ++ (if options.has 'c' then "c" else "C"))
          2
      | _, _ =>
        match ← readLines context names with
        | .error (name, error) =>
          let problem := if error = .isDirectory then "read failed: " else "cannot read: "
          complainAbout context (problem ++ name) error
          .exit 2
        | .ok lines =>
          if checks then
            checkSorted context plan (options.has 'C') (names.headD "-") lines
          else
            deliverSorted context (options.value? 'o')
              ((plan.sorted lines).flatMap fun line => bytesOf line ++ [10])

end Programs

end HybridShell
