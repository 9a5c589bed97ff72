import HybridShell.Programs.Options

/-!
# Copying

Inputs are copied one after the other.  On request lines are numbered, empty
lines are left out after another one, and what cannot be seen is shown.
-/

namespace HybridShell

namespace Programs

structure CopyRules where
  numbered : Bool
  numberedText : Bool
  squeezed : Bool
  marksEnds : Bool
  showsTabs : Bool
  showsHidden : Bool
  deriving Repr, DecidableEq

namespace CopyRules

def ofOptions (options : Options) : CopyRules :=
  { numbered := options.has 'n' && !options.has 'b'
    numberedText := options.has 'b'
    squeezed := options.has 's'
    marksEnds := options.hasAny ['E', 'A', 'e']
    showsTabs := options.hasAny ['T', 'A', 't']
    showsHidden := options.hasAny ['v', 'A', 'e', 't'] }

def isPlain (rules : CopyRules) : Bool :=
  rules = ⟨false, false, false, false, false, false⟩

def shownLow (byte : UInt8) : Bytes :=
  if byte = 127 then [94, 63] else if byte < 32 then [94, byte + 64] else [byte]

def shownByte (rules : CopyRules) (byte : UInt8) : Bytes :=
  if byte = 9 then if rules.showsTabs then shownLow byte else [byte]
  else if !rules.showsHidden then [byte]
  else if byte < 128 then shownLow byte
  else [77, 45] ++ shownLow (byte - 128)

end CopyRules

structure CopyState where
  number : Nat
  atStart : Bool
  afterEmpty : Bool

namespace CopyState

def start : CopyState :=
  ⟨0, true, false⟩

def numbering (state : CopyState) (needed : Bool) : Bytes × CopyState :=
  if needed then
    (Utf8.encode (alignRight 6 (state.number + 1) ++ "\t"),
      { state with number := state.number + 1 })
  else ([], state)

def copyByte (rules : CopyRules) (state : CopyState) (byte : UInt8) : Bytes × CopyState :=
  let lineEnd : Bytes := if rules.marksEnds then [36, 10] else [10]
  match state.atStart, byte == 10 with
  | true, true =>
    if rules.squeezed && state.afterEmpty then ([], state)
    else
      let (label, after) := state.numbering rules.numbered
      (label ++ lineEnd, { after with afterEmpty := true })
  | true, false =>
    let (label, after) := state.numbering (rules.numbered || rules.numberedText)
    (label ++ rules.shownByte byte, { after with atStart := false, afterEmpty := false })
  | false, true => (lineEnd, { state with atStart := true })
  | false, false => (rules.shownByte byte, state)

/-- Copy some bytes; the pieces of the result are in reverse order. -/
def copyBytes (rules : CopyRules) (state : CopyState) (bytes : Bytes) : List Bytes × CopyState :=
  bytes.foldl
    (fun (pieces, current) byte =>
      let (piece, next) := current.copyByte rules byte
      (piece :: pieces, next))
    ([], state)

end CopyState

def copyStream (rules : CopyRules) (source : Descriptor) : Nat → CopyState → Program CopyState
  | 0, state => .done state
  | reads + 1, state =>
    .read source .everything fun
      | none => .done state
      | some chunk =>
        if rules.isPlain then
          .write .output chunk fun _ => copyStream rules source reads state
        else
          let (pieces, next) := state.copyBytes rules chunk
          .write .output pieces.reverse.flatten fun _ => copyStream rules source reads next

def copyInputs (context : ProcessContext) (rules : CopyRules) (state : CopyState) (code : Int) :
    List String → Program Outcome
  | [] => .exit code
  | name :: rest => do
    match ← Program.openInput context name with
    | .error error =>
      complainAbout context name error
      copyInputs context rules state 1 rest
    | .ok source =>
      if ← .wouldMeet source .output .done then
        .say .error (context.name ++ ": " ++ name ++ ": input file is output file\n")
        copyInputs context rules state 1 rest
      else
        let after ← copyStream rules source Program.manyReads state
        copyInputs context rules after code rest

def catOptions : OptionRules where
  plain := ['A', 'b', 'e', 'E', 'n', 's', 't', 'T', 'u', 'v']
  words :=
    [("number-nonblank", 'b'), ("number", 'n'), ("squeeze-blank", 's'), ("show-nonprinting", 'v'),
      ("show-ends", 'E'), ("show-tabs", 'T'), ("show-all", 'A')]

def cat (context : ProcessContext) : Program Outcome :=
  Options.within catOptions context 1 fun options =>
    copyInputs context (.ofOptions options) .start 0 (Program.inputNames options.operands)

end Programs

end HybridShell
