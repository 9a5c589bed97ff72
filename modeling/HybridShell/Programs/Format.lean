import HybridShell.Number.Fraction
import HybridShell.Number.Reading
import HybridShell.Programs.Context
import HybridShell.Programs.Escape

/-!
# Formats

A format is text with conversions, in the places of which arguments are
written.  It is used again and again until all arguments are used up.
-/

namespace HybridShell

namespace Programs

/-- A number in a conversion: given in the format, or taken from the arguments. -/
inductive Amount where
  | fixed (value : Nat)
  | taken
  deriving Repr, DecidableEq

structure Conversion where
  flags : List Char
  width : Amount
  precision : Option Amount
  letter : Char
  deriving Repr, DecidableEq

inductive Directive where
  | literal (bytes : Bytes)
  | conversion (conversion : Conversion)
  | invalid (text : String)
  | stop
  deriving Repr, DecidableEq

inductive NumberFault where
  | notNumeric
  | incomplete
  | outOfRange
  deriving Repr, DecidableEq

/-- What programs that follow formats do not agree on. -/
structure FormatRules where
  hexEscapes : Bool
  realBits : Nat
  realOrder : Int
  numberComplaint : String → NumberFault → String
  invalidComplaint : String → String
  excessComplaint : String → Option String
  invalidCode : Int

namespace FormatRules

def usual : FormatRules where
  hexEscapes := true
  realBits := 64
  realOrder := 16384
  numberComplaint argument fault :=
    "'" ++ argument ++ "': " ++ (match fault with
      | .notNumeric => "expected a numeric value"
      | .incomplete => "value not completely converted"
      | .outOfRange => "Numerical result out of range")
  invalidComplaint text := text ++ ": invalid conversion specification"
  excessComplaint argument :=
    some ("warning: ignoring excess arguments, starting with '" ++ argument ++ "'")
  invalidCode := 1

def ofScripts : FormatRules where
  hexEscapes := false
  realBits := 53
  realOrder := 1024
  numberComplaint argument fault :=
    argument ++ ": " ++ (match fault with
      | .notNumeric => "expected numeric value"
      | .incomplete => "not completely converted"
      | .outOfRange => "Numerical result out of range")
  invalidComplaint text :=
    if text = "%" then "missing format character" else text ++ ": invalid directive"
  excessComplaint _ := none
  invalidCode := 2

end FormatRules

variable (rules : FormatRules) (text : List Char)

def amount : Amount × List Char :=
  match text with
  | '*' :: rest => (.taken, rest)
  | _ =>
    let digits := text.takeWhile Char.isDigit
    (.fixed (Escape.number 10 digits), text.drop digits.length)

def realLetters : List Char :=
  ['e', 'E', 'f', 'F', 'g', 'G']

def conversionLetters : List Char :=
  ['s', 'c', 'b', 'd', 'i', 'o', 'u', 'x', 'X'] ++ realLetters

def readConversion : Directive × List Char :=
  let isFlag (character : Char) : Bool := ['-', '+', ' ', '#', '0'].contains character
  let flags := text.takeWhile isFlag
  let (width, afterWidth) := amount (text.drop flags.length)
  let (precision, afterPrecision) : Option Amount × List Char :=
    match afterWidth with
    | '.' :: rest =>
      let (value, left) := amount rest
      (some value, left)
    | other => (none, other)
  let invalid (length : Nat) : Directive × List Char :=
    (.invalid (String.ofList ('%' :: text.take (text.length - length))), [])
  match afterPrecision with
  | [] => invalid 0
  | letter :: rest =>
    if conversionLetters.contains letter then
      (.conversion ⟨flags, width, precision, letter⟩, rest)
    else invalid rest.length

def directives (rules : FormatRules) : Nat → List Char → List Directive
  | 0, _ => []
  | _, [] => []
  | parts + 1, '%' :: '%' :: rest => .literal [37] :: directives rules parts rest
  | parts + 1, '%' :: rest =>
    let (directive, after) := readConversion rest
    directive :: directives rules parts after
  | parts + 1, '\\' :: rest =>
    match rest, Escape.meaning ⟨false, rules.hexEscapes⟩ rest with
    | '"' :: after, _ => .literal [34] :: directives rules parts after
    | _, .stop => [.stop]
    | _, .unknown => .literal [92] :: directives rules parts rest
    | _, .bytes bytes after => .literal bytes :: directives rules parts after
  | parts + 1, character :: rest =>
    .literal (Utf8.encode (String.singleton character)) :: directives rules parts rest

def digitsIn (base : Nat) (capital : Bool) (value : Nat) : List Char :=
  let digits := Nat.toDigits base value
  if capital then digits.map Char.toUpper else digits

inductive RealNumber where
  | finite (value : Fraction)
  | infinite
  | notANumber
  deriving Repr, DecidableEq

namespace RealNumber

def isFinite : RealNumber → Bool
  | finite _ => true
  | _ => false

end RealNumber

structure Layout where
  flags : List Char
  width : Nat
  precision : Option Nat
  letter : Char

namespace Layout

variable (layout : Layout)

def padded (bytes : Bytes) : Bytes :=
  let fill := List.replicate (layout.width - bytes.length) (32 : UInt8)
  if layout.flags.contains '-' then bytes ++ fill else fill ++ bytes

def isSigned : Bool :=
  ['d', 'i'].contains layout.letter

def sign (negative : Bool) : List Char :=
  if negative then ['-']
  else if layout.flags.contains '+' then ['+']
  else if layout.flags.contains ' ' then [' ']
  else []

def numberText (value : Int) : Bytes :=
  let unsigned := (Int64.ofInt value).toUInt64.toNat
  let digits := match layout.letter with
    | 'o' => digitsIn 8 false unsigned
    | 'x' => digitsIn 16 false unsigned
    | 'X' => digitsIn 16 true unsigned
    | 'u' => digitsIn 10 false unsigned
    | _ => digitsIn 10 false value.natAbs
  let front :=
    if layout.isSigned then layout.sign (value < 0)
    else if layout.flags.contains '#' && value ≠ 0 then
      match layout.letter with
      | 'x' => ['0', 'x']
      | 'X' => ['0', 'X']
      | 'o' => ['0']
      | _ => []
    else []
  let zeros (count : Nat) : List Char := List.replicate (count - digits.length) '0'
  let body := match layout.precision with
    | some precision => zeros precision ++ digits
    | none =>
      if layout.flags.contains '0' && !layout.flags.contains '-' then
        zeros (layout.width - front.length) ++ digits
      else digits
  layout.padded (Utf8.encode (String.ofList (front ++ body)))

def realText (negative : Bool) (value : RealNumber) : Bytes :=
  let front := layout.sign negative
  let places := layout.precision.getD 6
  let keeps := layout.flags.contains '#'
  let small := layout.letter.toLower
  let body := match value with
    | .infinite => ['i', 'n', 'f']
    | .notANumber => ['n', 'a', 'n']
    | .finite fraction =>
      if small = 'f' then fraction.fixedText places keeps
      else if small = 'e' then fraction.scientificText places keeps
      else fraction.generalText (max places 1) keeps
  let zeros :=
    if layout.flags.contains '0' && !layout.flags.contains '-' && value.isFinite then
      List.replicate (layout.width - front.length - body.length) '0'
    else []
  let text := front ++ zeros ++ body
  layout.padded
    (Utf8.encode (String.ofList (if layout.letter.isUpper then text.map Char.toUpper else text)))

end Layout

def leadingNatural? : Option (Nat × List Char) :=
  let take (base : Nat) (isDigit : Char → Bool) (digits : List Char) : Option (Nat × List Char) :=
    let used := digits.takeWhile isDigit
    if used.isEmpty then none else some (Escape.number base used, digits.drop used.length)
  match text with
  | '0' :: letter :: rest =>
    if letter = 'x' || letter = 'X' then
      (take 16 (fun digit => (Escape.hexDigit? digit).isSome) rest).or (some (0, letter :: rest))
    else take 8 Escape.isOctal text
  | _ => take 10 Char.isDigit text

def numericArgument (signed : Bool) (argument : String) : Int × Option NumberFault :=
  match argument.toList with
  | [] => (0, none)
  | '\'' :: character :: _ | '"' :: character :: _ => (character.toNat, none)
  | characters =>
    let (negative, unsigned) := Reading.splitSign (characters.dropWhile Char.isWhitespace)
    match leadingNatural? unsigned with
    | none => (0, some .notNumeric)
    | some (size, rest) =>
      let value : Int := if negative then -(size : Int) else size
      let widest : Int := Int.pow 2 64 - 1
      let least : Int := if signed then Int64.minValue.toInt else -widest
      let most : Int := if signed then Int64.maxValue.toInt else widest
      if value < least then (least, some .outOfRange)
      else if most < value then (most, some .outOfRange)
      else (value, if rest.isEmpty then none else some .incomplete)

/-- The digits at the front of a text, with an optional point and exponent, and what follows. -/
def leadingDecimal? : Option (Nat × Int × List Char) :=
  let whole := text.takeWhile Char.isDigit
  let (places, afterPlaces) : List Char × List Char := match text.drop whole.length with
    | '.' :: rest =>
      let digits := rest.takeWhile Char.isDigit
      if whole.isEmpty && digits.isEmpty then ([], '.' :: rest)
      else (digits, rest.drop digits.length)
    | other => ([], other)
  if whole.isEmpty && places.isEmpty then none
  else
    let mantissa := Reading.digitsValue (whole ++ places)
    let plain := some (mantissa, -(places.length : Int), afterPlaces)
    if afterPlaces.head?.any fun mark => mark = 'e' || mark = 'E' then
      let (negative, rest) := Reading.splitSign afterPlaces.tail
      let digits := rest.takeWhile Char.isDigit
      ((Reading.natural? digits).map fun value =>
        (mantissa, (if negative then -(value : Int) else value) - places.length,
          rest.drop digits.length)).or plain
    else plain

/-- The number of decimal digits before the point beyond which numbers are not looked at. -/
def farthestOrder : Int := 6000

def realOf (mantissa : Nat) (exponent : Int) : RealNumber × Bool :=
  let order := exponent + ((Nat.toDigits 10 mantissa).length : Int)
  if mantissa = 0 then (.finite ⟨0, 1⟩, false)
  else if farthestOrder < order then (.infinite, true)
  else if order < -farthestOrder then (.finite ⟨0, 1⟩, true)
  else
    let value := (Fraction.ofDecimal mantissa exponent).rounded rules.realBits
    if rules.realOrder ≤ value.binaryOrder then (.infinite, true)
    else if value.binaryOrder < -(rules.realOrder + rules.realBits) then (.finite ⟨0, 1⟩, true)
    else (.finite value, false)

def realWords : List (String × RealNumber) :=
  [("infinity", .infinite), ("inf", .infinite), ("nan", .notANumber)]

/-- The real number that an argument stands for: its sign, its size and what is wrong. -/
def realArgument (argument : String) : Bool × RealNumber × Option NumberFault :=
  match argument.toList with
  | [] => (false, .finite ⟨0, 1⟩, none)
  | '\'' :: character :: _ | '"' :: character :: _ =>
    (false, .finite ⟨character.toNat, 1⟩, none)
  | characters =>
    let (negative, unsigned) := Reading.splitSign (characters.dropWhile Char.isWhitespace)
    let lowered := String.ofList (unsigned.map Char.toLower)
    let remainder (rest : List Char) : Option NumberFault :=
      if rest.isEmpty then none else some .incomplete
    match realWords.find? fun (word, _) => lowered.startsWith word with
    | some (word, value) => (negative, value, remainder (unsigned.drop word.length))
    | none =>
      if lowered.startsWith "0x" then
        match leadingNatural? unsigned with
        | some (size, rest) => (negative, .finite ⟨size, 1⟩, remainder rest)
        | none => (false, .finite ⟨0, 1⟩, some .notNumeric)
      else
        match leadingDecimal? unsigned with
        | none => (false, .finite ⟨0, 1⟩, some .notNumeric)
        | some (mantissa, exponent, rest) =>
          let (value, beyond) := realOf rules mantissa exponent
          (negative, value, if beyond then some .outOfRange else remainder rest)

structure Formatted where
  bytes : Bytes
  complaints : List String
  arguments : List String
  stopped : Bool
  code : Int

def takeAmount (state : Formatted) : Amount → Int × Formatted
  | .fixed value => (value, state)
  | .taken =>
    ((numericArgument true (state.arguments.headD "")).1,
      { state with arguments := state.arguments.tail })

def convert (conversion : Conversion) (state : Formatted) : Formatted :=
  let (width, afterWidth) := takeAmount state conversion.width
  let (precision, ready) : Option Int × Formatted :=
    match conversion.precision with
    | none => (none, afterWidth)
    | some amount =>
      let (value, after) := takeAmount afterWidth amount
      (some value, after)
  let layout : Layout :=
    { flags := if width < 0 then '-' :: conversion.flags else conversion.flags
      width := width.natAbs
      precision := (precision.filter (0 ≤ ·)).map Int.toNat
      letter := conversion.letter }
  let argument := ready.arguments.headD ""
  let add (bytes : Bytes) : Formatted :=
    { ready with bytes := state.bytes ++ bytes, arguments := ready.arguments.tail }
  match conversion.letter with
  | 's' =>
    let bytes := Utf8.encode argument
    add (layout.padded (layout.precision.elim bytes bytes.take))
  | 'c' => add (layout.padded [((Utf8.encode argument).head?).getD 0])
  | 'b' =>
    let (bytes, stopped) := Escape.expand ⟨true, rules.hexEscapes⟩ argument.toList
    { add (layout.padded bytes) with stopped }
  | letter =>
    let (bytes, fault) : Bytes × Option NumberFault :=
      if realLetters.contains letter then
        let (negative, value, problem) := realArgument rules argument
        (layout.realText negative value, problem)
      else
        let (value, problem) := numericArgument layout.isSigned argument
        (layout.numberText value, problem)
    let written := add bytes
    match fault with
    | none => written
    | some problem =>
      { written with
        complaints := state.complaints ++ [rules.numberComplaint argument problem]
        code := 1 }

def applyDirective (state : Formatted) (directive : Directive) : Formatted :=
  if state.stopped then state
  else
    match directive with
    | .literal bytes => { state with bytes := state.bytes ++ bytes }
    | .conversion conversion => convert rules conversion state
    | .invalid text =>
      { state with
        complaints := state.complaints ++ [rules.invalidComplaint text]
        code := rules.invalidCode
        stopped := true }
    | .stop => { state with stopped := true }

def applyFormat (rules : FormatRules) (parts : List Directive) : Nat → Formatted → Formatted
  | 0, state => state
  | passes + 1, state =>
    let after := parts.foldl (applyDirective rules) state
    match after.stopped, after.arguments with
    | true, _ | _, [] => after
    | false, first :: rest =>
      if rest.length + 1 = state.arguments.length then
        { after with
          complaints := after.complaints ++ (rules.excessComplaint first).toList }
      else applyFormat rules parts passes after

/-- What arguments give when they are written as a format asks; nothing without a format. -/
def formatted? (arguments : List String) : Option Formatted :=
  let operands := match arguments with
    | "--" :: rest => rest
    | other => other
  match operands with
  | [] => none
  | format :: rest =>
    let parts := directives rules (format.length + 1) format.toList
    some (applyFormat rules parts (rest.length + 1) ⟨[], [], rest, false, 0⟩)

def printf (context : ProcessContext) : Program Outcome :=
  match formatted? .usual context.arguments with
  | none => .misused context "missing operand" 1
  | some written =>
    .write .output written.bytes fun _ =>
      .sayAndExit .error
        (String.join (written.complaints.map fun problem =>
          context.name ++ ": " ++ problem ++ "\n"))
        written.code

end Programs

end HybridShell
