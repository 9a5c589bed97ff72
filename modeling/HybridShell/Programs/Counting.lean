import HybridShell.Programs.Options
import HybridShell.Text.CharacterKind

/-!
# Counting

Lines, words and bytes are counted, and the width of the widest line is taken.
A word is a stretch between spaces with something in it that can be seen.
-/

namespace HybridShell

namespace Programs

structure Counts where
  lines : Nat
  words : Nat
  bytes : Nat
  width : Nat
  deriving Repr, DecidableEq

structure CountState where
  counts : Counts
  inside : Bool
  column : Nat

namespace CountState

def count (state : CountState) (byte : UInt8) : CountState :=
  let character := Char.ofNat byte.toNat
  let counted := { state.counts with bytes := state.counts.bytes + 1 }
  let ended := { counted with
    words := counted.words + (if state.inside then 1 else 0)
    width := max counted.width state.column }
  if byte = 10 then ⟨{ ended with lines := ended.lines + 1 }, false, 0⟩
  else if byte = 13 || byte = 12 then ⟨ended, false, 0⟩
  else if byte = 9 then ⟨ended, false, (state.column / 8 + 1) * 8⟩
  else if byte = 32 then ⟨ended, false, state.column + 1⟩
  else if byte = 11 then ⟨ended, false, state.column⟩
  else if CharacterKind.isPrintable character then ⟨counted, true, state.column + 1⟩
  else ⟨counted, state.inside, state.column⟩

end CountState

namespace Counts

def zero : Counts :=
  ⟨0, 0, 0, 0⟩

def ofBytes (bytes : Bytes) : Counts :=
  let last := bytes.foldl CountState.count ⟨zero, false, 0⟩
  { last.counts with
    words := last.counts.words + (if last.inside then 1 else 0)
    width := max last.counts.width last.column }

def add (left right : Counts) : Counts :=
  ⟨left.lines + right.lines, left.words + right.words, left.bytes + right.bytes,
    max left.width right.width⟩

def chosen (options : Options) (counts : Counts) : List Nat :=
  let asked :=
    [('l', counts.lines), ('w', counts.words), ('m', counts.bytes), ('c', counts.bytes),
      ('L', counts.width)].filter fun (letter, _) => options.has letter
  if asked.isEmpty then [counts.lines, counts.words, counts.bytes] else asked.map Prod.snd

end Counts

def countLine (width : Nat) (numbers : List Nat) (name : String) : String :=
  " ".intercalate (numbers.map (alignRight width)) ++ (if name.isEmpty then "" else " " ++ name)
    ++ "\n"

structure Counted where
  name : String
  counts : Counts
  /-- Whether it is an ordinary file; none when there is no such input. -/
  ordinary : Option Bool
  deriving Repr, DecidableEq

variable (context : ProcessContext)

def isOrdinary (name : String) : Program Bool :=
  let answer (kind : Option EntryKind) : Program Bool :=
    .done (kind.any fun found => found ≠ .directory)
  if name = "-" then .inspectStream .input answer else .inspect (context.path name) answer

/--
Count an input, and complain when it cannot be read; a directory is counted as
empty all the same.
-/
def countInput (name : String) : Program (Counted × Bool) := do
  let ordinary ← isOrdinary context name
  match ← Program.readInput context name with
  | .error error =>
    complainAbout context (if name = "-" then "'standard input'" else name) error
    .done (⟨name, .zero, if error = .isDirectory then some false else none⟩, true)
  | .ok bytes => .done (⟨name, .ofBytes bytes, some ordinary⟩, false)

def countInputs (context : ProcessContext) : List String → Program (List Counted × Bool)
  | [] => .done ([], false)
  | name :: rest => do
    let (first, missed) ← countInput context name
    let (others, failed) ← countInputs context rest
    .done (first :: others, missed || failed)

/--
The width of counts: that of the number of bytes in all ordinary files, and at
least seven when something else is counted.  A first input that is not there
leaves the least width.
-/
def countWidth (counted : List Counted) : Nat :=
  if counted.head?.all (·.ordinary.isNone) then 1
  else
    let size := counted.foldl
      (fun total input =>
        if input.ordinary = some true then total + input.counts.bytes else total) 0
    max (toString size).length (if counted.any (·.ordinary = some false) then 7 else 1)

def wcOptions : OptionRules where
  plain := ['l', 'w', 'c', 'm', 'L']
  words :=
    [("bytes", 'c'), ("chars", 'm'), ("lines", 'l'), ("words", 'w'), ("max-line-length", 'L')]

def wc : Program Outcome :=
  Options.within wcOptions context 1 fun options => do
    let (counted, failed) ← countInputs context (Program.inputNames options.operands)
    let totals := counted.foldl (fun (total : Counts) input => total.add input.counts) .zero
    let several := counted.length > 1
    let width := if !several && (totals.chosen options).length = 1 then 1 else countWidth counted
    let shownName (name : String) : String := if options.operands.isEmpty then "" else name
    let lines := (counted.filter (·.ordinary.isSome)).map fun input =>
      countLine width (input.counts.chosen options) (shownName input.name)
    let total := if several then [countLine width (totals.chosen options) "total"] else []
    .sayAndExit .output (String.join (lines ++ total)) (if failed then 1 else 0)

end Programs

end HybridShell
