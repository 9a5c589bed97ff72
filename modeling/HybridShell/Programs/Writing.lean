import HybridShell.Programs.Escape
import HybridShell.Programs.Options

/-!
# Programs that write a line or wait
-/

namespace HybridShell

namespace Programs

def isEchoOption (argument : String) : Bool :=
  match argument.toList with
  | '-' :: first :: rest => (first :: rest).all fun letter => ['n', 'e', 'E'].contains letter
  | _ => false

/-- The options at the front of the arguments of `echo`: no line end, and escapes. -/
def echoOptions (noLineEnd escapes : Bool) : List String → Bool × Bool × List String
  | [] => (noLineEnd, escapes, [])
  | argument :: rest =>
    if isEchoOption argument then
      let letters := argument.toList.drop 1
      let last := (letters.filter (· ≠ 'n')).getLast?
      echoOptions (noLineEnd || letters.contains 'n') (last.elim escapes (· = 'e')) rest
    else (noLineEnd, escapes, argument :: rest)

def echoBytes (noLineEnd : Bool) (escapes : Option Escape.Rules) (words : List String) : Bytes :=
  let text := " ".intercalate words
  match escapes with
  | some rules =>
    let (bytes, stopped) := Escape.expand rules text.toList
    if noLineEnd || stopped then bytes else bytes ++ [10]
  | none => Utf8.encode (if noLineEnd then text else text ++ "\n")

variable (context : ProcessContext)

def echo : Program Outcome :=
  let (noLineEnd, escapes, words) := echoOptions false false context.arguments
  .write .output (echoBytes noLineEnd (if escapes then some ⟨true, true⟩ else none) words)
    fun _ => .exit 0

def pwdOptions : OptionRules where
  plain := ['L', 'P']
  words := [("logical", 'L'), ("physical", 'P')]

def pwd : Program Outcome :=
  Options.within pwdOptions context 1 fun options => do
    if !options.operands.isEmpty then
      .say .error (context.name ++ ": ignoring non-option arguments\n")
    .sayAndExit .output (Path.render (Path.names context.directory) ++ "\n") 0

def milliseconds? (text : String) : Option Nat :=
  let characters := text.toList
  let (digits, unit) : List Char × Nat := match characters.getLast? with
    | some 's' => (characters.dropLast, 1)
    | some 'm' => (characters.dropLast, 60)
    | some 'h' => (characters.dropLast, 3600)
    | some 'd' => (characters.dropLast, 86400)
    | _ => (characters, 1)
  let whole := digits.takeWhile Char.isDigit
  let fraction := match digits.drop whole.length with
    | [] => some []
    | '.' :: rest => if rest.all Char.isDigit then some rest else none
    | _ => none
  match fraction with
  | none => none
  | some places =>
    if whole.isEmpty && places.isEmpty then none
    else
      let thousandths := (places ++ ['0', '0', '0']).take 3
      some (unit * (1000 * Escape.number 10 whole + Escape.number 10 thousandths))

def sleep : Program Outcome :=
  Options.within ⟨[], [], []⟩ context 1 fun options =>
    let times := options.operands
    let invalid := times.filter fun time => (milliseconds? time).isNone
    if times.isEmpty then .misused context "missing operand" 1
    else if invalid.isEmpty then
      .sleep ((times.filterMap milliseconds?).foldl (· + ·) 0) fun _ => .exit 0
    else
      .misused context
        (("\n" ++ context.name ++ ": ").intercalate
          (invalid.map fun time => "invalid time interval '" ++ time ++ "'"))
        1

end Programs

end HybridShell
