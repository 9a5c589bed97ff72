import HybridShell.Programs.Context

/-!
# Options of programs

Letters behind a dash are options; some take a value.  Of a word behind two
dashes, as much as tells it apart is enough.  Options may stand between
operands, up to a double dash.
-/

namespace HybridShell

structure OptionRules where
  plain : List Char
  valued : List Char := []
  words : List (String × Char)

inductive OptionFault where
  | unknown (letter : Char)
  | noValue (letter : Char)
  | unknownWord (word : String)
  | ambiguous (word : String) (names : List String)
  | wordWithoutValue (name : String)
  | wordWithValue (name : String)
  deriving Repr, DecidableEq

namespace OptionFault

def message : OptionFault → String
  | unknown letter => "invalid option -- '" ++ String.singleton letter ++ "'"
  | noValue letter => "option requires an argument -- '" ++ String.singleton letter ++ "'"
  | unknownWord word => "unrecognized option '" ++ word ++ "'"
  | ambiguous word names =>
    "option '" ++ word ++ "' is ambiguous; possibilities:"
      ++ String.join (names.map fun name => " '--" ++ name ++ "'")
  | wordWithoutValue name => "option '--" ++ name ++ "' requires an argument"
  | wordWithValue name => "option '--" ++ name ++ "' doesn't allow an argument"

end OptionFault

structure Options where
  letters : List (Char × String)
  operands : List String
  deriving Repr, DecidableEq

namespace Options

def empty : Options :=
  ⟨[], []⟩

variable (options : Options) (rules : OptionRules)

def has (letter : Char) : Bool :=
  options.letters.any (·.1 = letter)

def hasAny (letters : List Char) : Bool :=
  letters.any options.has

def values (letter : Char) : List String :=
  (options.letters.filter (·.1 = letter)).map Prod.snd

def value? (letter : Char) : Option String :=
  (options.values letter).getLast?

def last? (letters : List Char) : Option Char :=
  ((options.letters.map Prod.fst).filter letters.contains).getLast?

/-- The options in one word, given the words after it, and the words that are left. -/
def cluster (rules : OptionRules) (following : List String) :
    List Char → Except OptionFault (List (Char × String) × List String)
  | [] => .ok ([], following)
  | letter :: rest =>
    if rules.valued.contains letter then
      match rest, following with
      | [], [] => .error (.noValue letter)
      | [], value :: others => .ok ([(letter, value)], others)
      | _, _ => .ok ([(letter, String.ofList rest)], following)
    else if rules.plain.contains letter then
      (cluster rules following rest).map fun (others, left) => ((letter, "") :: others, left)
    else .error (.unknown letter)

def ofName (word name : String) : Except OptionFault (String × Char) :=
  match rules.words.find? (·.1 = name), rules.words.filter (·.1.startsWith name) with
  | some found, _ => .ok found
  | none, [] => .error (.unknownWord word)
  | none, first :: others =>
    if others.all (·.2 = first.2) then .ok first
    else .error (.ambiguous word ((first :: others).map Prod.fst))

/-- The option of a word behind two dashes, given the words after it, and the words left. -/
def ofWord (following : List String) (word : String) :
    Except OptionFault (List (Char × String) × List String) := do
  let text := word.toList.drop 2
  let name := text.takeWhile (· ≠ '=')
  let given := text.drop name.length
  let (full, letter) ← ofName rules word (String.ofList name)
  if rules.valued.contains letter then
    match given, following with
    | '=' :: value, _ => .ok ([(letter, String.ofList value)], following)
    | _, value :: others => .ok ([(letter, value)], others)
    | _, [] => .error (.wordWithoutValue full)
  else if given.isEmpty then .ok ([(letter, "")], following)
  else .error (.wordWithValue full)

def readWords (rules : OptionRules) : Nat → List String → Except OptionFault Options
  | 0, words => .ok ⟨[], words⟩
  | _, [] => .ok empty
  | count + 1, word :: rest => do
    let withLetters (letters : List (Char × String)) (left : List String) :
        Except OptionFault Options := do
      let read ← readWords rules count left
      .ok { read with letters := letters ++ read.letters }
    match word.toList with
    | ['-', '-'] => .ok ⟨[], rest⟩
    | '-' :: '-' :: _ =>
      let (letters, left) ← ofWord rules rest word
      withLetters letters left
    | '-' :: first :: others =>
      let (letters, left) ← cluster rules rest (first :: others)
      withLetters letters left
    | _ =>
      let read ← readWords rules count rest
      .ok { read with operands := word :: read.operands }

def read (arguments : List String) : Except OptionFault Options :=
  readWords rules arguments.length arguments

def within (context : ProcessContext) (code : Int) (run : Options → Program Outcome) :
    Program Outcome :=
  match read rules context.arguments with
  | .error fault => .misused context fault.message code
  | .ok options => run options

end Options

end HybridShell
