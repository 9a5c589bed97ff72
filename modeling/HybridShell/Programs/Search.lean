import HybridShell.Programs.Options
import HybridShell.Programs.Regular

/-!
# Searching lines

A search reads no more than it needs: it stops at the first line when only the
fact counts, and after a number of lines when one is given.
-/

namespace HybridShell

namespace Programs

structure LineMatcher where
  patterns : List Regular
  ignoresCase : Bool
  wholeLine : Bool
  wholeWord : Bool
  deriving Repr, DecidableEq

namespace LineMatcher

variable (matcher : LineMatcher)

def accepts (start final : Regular.Place) : Bool :=
  (!matcher.wholeLine || (start.before.isNone && final.rest.isEmpty))
    && (!matcher.wholeWord || (!start.isAfterWord && !final.isBeforeWord))

def longest? (start : Regular.Place) : Option Regular.Place :=
  let ends := matcher.patterns.flatMap fun pattern =>
    (pattern.ends matcher.ignoresCase start).filter (matcher.accepts start)
  ends.foldl
    (fun known place =>
      match known with
      | some best => if best.offset < place.offset then some place else known
      | none => some place)
    none

def find? (matcher : LineMatcher) : Nat → Regular.Place →
    Option (Regular.Place × Regular.Place)
  | 0, _ => none
  | places + 1, start =>
    match matcher.longest? start with
    | some final => some (start, final)
    | none => if start.rest.isEmpty then none else matcher.find? places (start.advance 1)

def isIn (line : List Char) : Bool :=
  (matcher.find? (line.length + 1) (.start line)).isSome

/-- The matches that are not empty, from left to right, for a number of tries at most. -/
def occurrences (matcher : LineMatcher) : Nat → Regular.Place → List (List Char)
  | 0, _ => []
  | tries + 1, place =>
    match matcher.find? (place.rest.length + 1) place with
    | none => []
    | some (start, final) =>
      if final.offset = start.offset then
        if start.rest.isEmpty then [] else matcher.occurrences tries (start.advance 1)
      else
        start.rest.take (final.offset - start.offset) :: matcher.occurrences tries final

end LineMatcher

inductive SearchOutput where
  | lines
  | occurrences
  | count
  | nameIfFound
  | nameIfMissing
  | nothing
  deriving Repr, DecidableEq

structure LineSearch where
  matcher : LineMatcher
  inverted : Bool
  output : SearchOutput
  numbered : Bool
  named : Bool
  limit : Option Nat
  linesBefore : Nat
  linesAfter : Nat
  silent : Bool

namespace LineSearch

variable (search : LineSearch)

def stopsAtFirst : Bool :=
  match search.output with
  | .nameIfFound | .nameIfMissing | .nothing => true
  | _ => false

def selects (line : List Char) : Bool :=
  search.matcher.isIn line != search.inverted

def isSatisfied (selected : Nat) : Bool :=
  (search.stopsAtFirst && 0 < selected) || search.limit.any (· ≤ selected)

end LineSearch

structure SearchState where
  number : Nat
  selected : Nat
  lastWritten : Nat
  trailing : Nat
  skipped : List (Nat × List Char)
  written : List Bytes
  pending : Bytes

namespace SearchState

def start : SearchState :=
  ⟨0, 0, 0, 0, [], [], []⟩

variable (search : LineSearch)

/-- What stands before a line: the name of the input and the number of the line. -/
def label (name : String) (number : Nat) (mark : String) : Bytes :=
  Utf8.encode ((if search.named then name ++ mark else "")
    ++ (if search.numbered then toString number ++ mark else ""))

def write (name mark : String) (state : SearchState) (number : Nat) (line : List Char) :
    SearchState :=
  let gap : List Bytes :=
    if 0 < search.linesBefore + search.linesAfter && 0 < state.lastWritten
        && state.lastWritten + 1 < number then
      [Utf8.encode "--\n"]
    else []
  { state with
    lastWritten := number
    written := (label search name number mark ++ bytesOf line ++ [10]) :: gap ++ state.written }

def writeSelected (name : String) (state : SearchState) (line : List Char) : SearchState :=
  match search.output with
  | .lines =>
    let before := (state.skipped.take search.linesBefore).reverse.foldl
      (fun current (number, text) => write search name "-" current number text) state
    { write search name ":" before state.number line with
      skipped := [], trailing := search.linesAfter }
  | .occurrences =>
    if search.inverted then state
    else
      let found := search.matcher.occurrences (line.length + 1) (.start line)
      { state with
        written := found.reverse.map (fun text =>
          label search name state.number ":" ++ bytesOf text ++ [10]) ++ state.written }
  | _ => state

def step (name : String) (state : SearchState) (line : List Char) : SearchState :=
  let next := { state with number := state.number + 1 }
  if search.isSatisfied state.selected then
    if search.output = .lines && 0 < state.trailing then
      { write search name "-" next next.number line with trailing := state.trailing - 1 }
    else state
  else if search.selects line then
    writeSelected search name { next with selected := state.selected + 1 } line
  else if 0 < state.trailing then
    { write search name "-" next next.number line with trailing := state.trailing - 1 }
  else { next with skipped := (next.number, line) :: state.skipped.take search.linesBefore }

def isFinished (state : SearchState) : Bool :=
  search.isSatisfied state.selected && (search.stopsAtFirst || state.trailing = 0)

def steps (name : String) (state : SearchState) (bytes : Bytes) : SearchState :=
  let lines := byteLines (state.pending ++ bytes)
  let complete := lines.filter (·.getLast? = some 10)
  let looked := complete.foldl
    (fun current line => step search name current (charactersOf (lineText line)))
    { state with pending := [] }
  { looked with pending := (lines.filter (·.getLast? ≠ some 10)).flatten }

def finish (name : String) (state : SearchState) : SearchState :=
  if state.pending.isEmpty then state
  else step search name { state with pending := [] } (charactersOf state.pending)

def summary (name : String) (state : SearchState) : Bytes :=
  match search.output with
  | .count =>
    Utf8.encode ((if search.named then name ++ ":" else "") ++ toString state.selected ++ "\n")
  | .nameIfFound => if 0 < state.selected then Utf8.encode (name ++ "\n") else []
  | .nameIfMissing => if state.selected = 0 then Utf8.encode (name ++ "\n") else []
  | _ => []

end SearchState

def searchStream (search : LineSearch) (name : String) (source : Descriptor) :
    Nat → SearchState → Program SearchState
  | 0, state => .done state
  | reads + 1, state =>
    .read source .everything fun
      | none => .done (state.finish search name)
      | some chunk =>
        let next := state.steps search name chunk
        if next.isFinished search then .done next
        else searchStream search name source reads next

def searchInputs (context : ProcessContext) (search : LineSearch) (found failed : Bool) :
    List String → Program Outcome
  | [] =>
    .exit (if failed && !(found && search.output = .nothing) then 2 else if found then 0 else 1)
  | name :: rest => do
    let shown := if name = "-" then "(standard input)" else name
    match ← Program.openInput context name with
    | .error error =>
      if !search.silent then complainAbout context shown error
      searchInputs context search found true rest
    | .ok source =>
      if ← .wouldMeet source .output .done then
        .say .error (context.name ++ ": " ++ shown ++ ": input file is also the output\n")
        searchInputs context search found true rest
      else
        let state ← searchStream search shown source Program.manyReads .start
        let bytes := state.written.reverse.flatten ++ state.summary search shown
        .write .output bytes fun _ =>
          let matched := if search.output = .nameIfMissing then state.selected = 0
            else 0 < state.selected
          if matched && search.output = .nothing then .exit 0
          else searchInputs context search (found || matched) failed rest

def grepOptions : OptionRules where
  plain := ['E', 'F', 'G', 'i', 'y', 'v', 'c', 'n', 'q', 'x', 'w', 's', 'h', 'H', 'l', 'L', 'o',
    'a']
  valued := ['e', 'm', 'A', 'B', 'C']
  words :=
    [("extended-regexp", 'E'), ("fixed-strings", 'F'), ("basic-regexp", 'G'), ("regexp", 'e'),
      ("ignore-case", 'i'), ("word-regexp", 'w'), ("line-regexp", 'x'), ("no-messages", 's'),
      ("invert-match", 'v'), ("max-count", 'm'), ("line-number", 'n'), ("with-filename", 'H'),
      ("no-filename", 'h'), ("only-matching", 'o'), ("quiet", 'q'), ("silent", 'q'),
      ("files-without-match", 'L'), ("files-with-matches", 'l'), ("count", 'c'),
      ("after-context", 'A'), ("before-context", 'B'), ("context", 'C'), ("text", 'a')]

def readPattern (kind : Option Char) (written : String) : Except RegularFault Regular :=
  let text := charactersOf (Utf8.encode written)
  match kind with
  | some 'F' => .ok (.ofText text)
  | some 'E' => Regular.read true text
  | _ => Regular.read false text

variable (options : Options)

def searchOutput : SearchOutput :=
  if options.has 'q' then .nothing
  else
    match options.last? ['l', 'L'] with
    | some 'L' => .nameIfMissing
    | some _ => .nameIfFound
    | none =>
      if options.has 'c' then .count else if options.has 'o' then .occurrences else .lines

def contextLength (letter : Char) : Except String Nat :=
  match (options.value? letter).or (options.value? 'C') with
  | none => .ok 0
  | some text =>
    match Reading.natural? text.toList with
    | some count => .ok count
    | none => .error (text ++ ": invalid context length argument")

def searchOf (patterns : List String) (several : Bool) : Except String LineSearch := do
  let limit ← match options.value? 'm' with
    | none => pure none
    | some text =>
      match Reading.natural? text.toList with
      | some count => pure (some count)
      | none => throw "invalid max count"
  let linesBefore ← contextLength options 'B'
  let linesAfter ← contextLength options 'A'
  let kind := options.last? ['E', 'F', 'G']
  let read ← ((patterns.flatMap (·.splitOn "\n")).mapM (readPattern kind)).mapError
    RegularFault.message
  return {
    matcher :=
      { patterns := read
        ignoresCase := options.hasAny ['i', 'y']
        wholeLine := options.has 'x'
        wholeWord := options.has 'w' }
    inverted := options.has 'v'
    output := searchOutput options
    numbered := options.has 'n'
    named := match options.last? ['h', 'H'] with
      | some letter => letter == 'H'
      | none => several
    limit, linesBefore, linesAfter
    silent := options.has 's' }

def misusedSearch (problem : String) : Program Outcome :=
  .sayAndExit .error
    (problem ++ "Usage: grep [OPTION]... PATTERNS [FILE]...\n"
      ++ "Try 'grep --help' for more information.\n")
    2

def grep (context : ProcessContext) : Program Outcome :=
  match Options.read grepOptions context.arguments with
  | .error fault => misusedSearch (context.name ++ ": " ++ fault.message ++ "\n")
  | .ok options =>
    let (patterns, operands) := match options.values 'e', options.operands with
      | [], first :: rest => ([first], rest)
      | given, operands => (given, operands)
    if patterns.isEmpty then misusedSearch ""
    else
      let names := Program.inputNames operands
      match searchOf options patterns (names.length > 1) with
      | .error problem => giveUp context problem 2
      | .ok search =>
        if search.limit = some 0 then .exit 1 else searchInputs context search false false names

end Programs

end HybridShell
