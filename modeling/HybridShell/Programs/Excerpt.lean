import HybridShell.Number.Reading
import HybridShell.Programs.Options

/-!
# Beginnings and ends

A number of lines or bytes is taken from the beginning or from the end of each
input.
-/

namespace HybridShell

namespace Programs

inductive CountSign where
  | plain
  | plus
  | minus
  deriving Repr, DecidableEq

/-- How much of an input is taken: a number of lines or bytes. -/
structure Extent where
  sign : CountSign
  count : Nat
  inBytes : Bool
  deriving Repr, DecidableEq

namespace Extent

def unit? (letters : List Char) : Option Nat :=
  let powers := ['K', 'M', 'G', 'T', 'P', 'E']
  match letters with
  | [] => some 1
  | ['b'] => some 512
  | letter :: rest =>
    let capital := if letter = 'k' then 'K' else letter
    match powers.idxOf? capital, rest with
    | some index, [] | some index, ['i', 'B'] => some (Nat.pow 1024 (index + 1))
    | some index, ['B'] => some (Nat.pow 1000 (index + 1))
    | _, _ => none

def count? (text : List Char) : Option Nat := do
  let digits := text.takeWhile Char.isDigit
  return (← Reading.natural? digits) * (← unit? (text.drop digits.length))

def read (text : String) (inBytes : Bool) : Except String Extent :=
  let (sign, unsigned) := match text.toList with
    | '+' :: rest => (CountSign.plus, rest)
    | '-' :: rest => (CountSign.minus, rest)
    | other => (CountSign.plain, other)
  match count? unsigned with
  | some count => .ok ⟨sign, count, inBytes⟩
  | none =>
    .error ("invalid number of " ++ (if inBytes then "bytes" else "lines") ++ ": '"
      ++ (if sign = .minus then String.ofList unsigned else text) ++ "'")

/-- The extent that options ask for; the last one counts. -/
def ofOptions (options : Options) : Except String Extent :=
  options.letters.foldlM
    (fun known (letter, text) =>
      if letter = 'c' || letter = 'n' then read text (letter = 'c') else .ok known)
    ⟨.plain, 10, false⟩

end Extent

def countable (inBytes : Bool) (bytes : Bytes) : List Bytes :=
  if inBytes then bytes.map fun byte => [byte] else byteLines bytes

def copyBytes (source : Descriptor) : Nat → Nat → Program Unit
  | 0, _ | _, 0 => .done ()
  | reads + 1, count =>
    .read source (.bytes count) fun
      | none => .done ()
      | some chunk =>
        .write .output chunk fun _ => copyBytes source reads (count - chunk.length)

def copyLines (source : Descriptor) (portion : Portion) : Nat → Nat → Program Unit
  | 0, _ | _, 0 => .done ()
  | reads + 1, count =>
    .read source portion fun
      | none => .done ()
      | some chunk =>
        .write .output ((byteLines chunk).take count).flatten fun _ =>
          copyLines source portion reads (count - chunk.count 10)

/--
Copy the beginning of a stream.  No more is read than needed, except that whole
chunks are taken from what is not a file.
-/
def copyBeginning (extent : Extent) (source : Descriptor) : Program Unit :=
  match extent.sign, extent.inBytes with
  | .minus, inBytes => do
    let parts := countable inBytes (← Program.readAll source)
    .write .output (parts.take (parts.length - extent.count)).flatten .done
  | _, true => copyBytes source Program.manyReads extent.count
  | _, false =>
    .inspectStream source fun kind =>
      copyLines source (if kind.isSome then .line else .everything) Program.manyReads
        extent.count

def copyEnding (extent : Extent) (source : Descriptor) : Program Unit := do
  let parts := countable extent.inBytes (← Program.readAll source)
  let skipped := if extent.sign = .plus then extent.count - 1 else parts.length - extent.count
  .write .output (parts.drop skipped).flatten .done

def shownInput (name : String) : String :=
  if name = "-" then "standard input" else name

def excerptInputs (context : ProcessContext) (copy : Descriptor → Program Unit)
    (headings : Bool) (code : Int) (first : Bool) : List String → Program Outcome
  | [] => .exit code
  | name :: rest => do
    let heading : Program Unit :=
      if headings then
        .say .output ((if first then "" else "\n") ++ "==> " ++ shownInput name ++ " <==\n")
      else .done ()
    match ← Program.openInput context name with
    | .error .isDirectory =>
      heading
      complainAbout context ("error reading '" ++ shownInput name ++ "'") .isDirectory
      excerptInputs context copy headings 1 false rest
    | .error error =>
      complainAbout context ("cannot open '" ++ name ++ "' for reading") error
      excerptInputs context copy headings 1 first rest
    | .ok source =>
      heading
      copy source
      excerptInputs context copy headings code false rest

def excerptOptions : OptionRules where
  plain := ['q', 'v']
  valued := ['n', 'c']
  words :=
    [("bytes", 'c'), ("lines", 'n'), ("quiet", 'q'), ("silent", 'q'), ("verbose", 'v')]

variable (context : ProcessContext)

def excerpt (copy : Extent → Descriptor → Program Unit) : Program Outcome :=
  Options.within excerptOptions context 1 fun options =>
    match Extent.ofOptions options with
    | .error problem => giveUp context problem 1
    | .ok extent =>
      let names := Program.inputNames options.operands
      let headings := match options.last? ['q', 'v'] with
        | some letter => letter == 'v'
        | none => names.length > 1
      excerptInputs context (copy extent) headings 0 true names

/-- An old-style count of lines or bytes in modern options, given its sign and the rest. -/
def modernCount? (sign : String) (text : List Char) : Option (List String) :=
  let digits := text.takeWhile Char.isDigit
  let letters := text.drop digits.length
  let kind := if letters.contains 'c' then "-c" else "-n"
  if digits.isEmpty || !letters.all fun letter => ['c', 'l', 'q', 'v'].contains letter then none
  else
    some ((kind ++ sign ++ String.ofList digits)
      :: (letters.filter fun letter => letter = 'q' || letter = 'v').map fun letter =>
        "-" ++ String.singleton letter)

def modernArguments (signs : List Char) : List String → List String
  | [] => []
  | first :: rest =>
    match first.toList with
    | sign :: text =>
      if signs.contains sign then
        (modernCount? (if sign = '+' then "+" else "") text).getD [first] ++ rest
      else first :: rest
    | [] => first :: rest

def head : Program Outcome :=
  excerpt { context with arguments := modernArguments ['-'] context.arguments } copyBeginning

/-- Write the end of the inputs; an old-style count has one input at most. -/
def tail : Program Outcome :=
  let signs := if context.arguments.length ≤ 2 then ['-', '+'] else []
  excerpt { context with arguments := modernArguments signs context.arguments } copyEnding

end Programs

end HybridShell
