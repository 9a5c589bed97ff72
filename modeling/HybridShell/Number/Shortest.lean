/-!
# The text of a float

A float is written with the fewest digits that are nearer to it than to any
other double.  The search goes through the decimal grids of one, two, …
seventeen digits and tests the two neighbours of the value on each grid in exact
arithmetic.
-/

namespace HybridShell

/-- What a bit pattern of 64 bits stands for, apart from its sign. -/
inductive Magnitude where
  | notANumber
  | infinite
  /-- The value `significand * 2 ^ exponent`. -/
  | finite (significand : Nat) (exponent : Int)
  deriving Repr, DecidableEq

structure Binary64 where
  negative : Bool
  magnitude : Magnitude
  deriving Repr, DecidableEq

namespace Binary64

def ofBits (bits : Nat) : Binary64 :=
  let fraction : Nat := bits % Nat.pow 2 52
  let field : Nat := bits / Nat.pow 2 52 % Nat.pow 2 11
  { negative := bits / Nat.pow 2 63 % 2 == 1
    magnitude :=
      if field = 2047 then
        if fraction = 0 then .infinite else .notANumber
      else if field = 0 then .finite fraction (-1074)
      else .finite (Nat.pow 2 52 + fraction) ((field : Int) - 1075) }

def ofFloat (value : Float) : Binary64 :=
  ofBits value.toBits.toNat

end Binary64

/-- The number `digits * 10 ^ exponent`. -/
structure Decimal where
  digits : Nat
  exponent : Int
  deriving Repr, DecidableEq

namespace Decimal

def trimZeros : Nat → Decimal → Decimal
  | 0, decimal => decimal
  | fuel + 1, decimal =>
    if decimal.digits ≠ 0 ∧ decimal.digits % 10 = 0 then
      trimZeros fuel ⟨decimal.digits / 10, decimal.exponent + 1⟩
    else decimal

end Decimal

namespace Shortest

def powerUp (base : Nat) (exponent : Int) : Nat :=
  Nat.pow base exponent.toNat

def powerDown (base : Nat) (exponent : Int) : Nat :=
  Nat.pow base (-exponent).toNat

/--
The least `k` with `numerator / denominator < 10 ^ k`, counted from the
number of digits of the integer part or, below one, from the zeros after the
point.
-/
def decimalOrder (numerator denominator : Nat) : Int :=
  let whole := numerator / denominator
  if whole ≠ 0 then ((Nat.toDigits 10 whole).length : Int)
  else
    let rec belowOne : Nat → Nat → Int → Int
      | 0, _, order => order
      | fuel + 1, scaled, order =>
        if scaled * 10 < denominator then belowOne fuel (scaled * 10) (order - 1) else order
    belowOne 400 numerator 0

/-- One double as quarters of its unit in the last place, with its rounding interval. -/
structure Interval where
  lower : Nat
  value : Nat
  upper : Nat
  exponent : Int
  closed : Bool

/-- The interval of reals that round to `significand * 2 ^ exponent`. -/
def intervalOf (significand : Nat) (exponent : Int) : Interval :=
  { lower :=
      if significand = Nat.pow 2 52 ∧ exponent ≠ -1074 then 4 * significand - 1
      else 4 * significand - 2
    value := 4 * significand
    upper := 4 * significand + 2
    exponent := exponent - 2
    closed := significand % 2 == 0 }

/-- The best decimal with a unit of `10 ^ unit` that lies in the interval. -/
def onGrid? (interval : Interval) (unit : Int) : Option Decimal :=
  let up := powerUp 2 interval.exponent * powerUp 10 (-unit)
  let denominator := powerDown 2 interval.exponent * powerDown 10 (-unit)
  let low := interval.lower * up
  let exact := interval.value * up
  let high := interval.upper * up
  let floor := exact / denominator
  let inside (candidate : Nat) : Bool :=
    let scaled := candidate * denominator
    if interval.closed then low ≤ scaled && scaled ≤ high else low < scaled && scaled < high
  let floorDistance := exact - floor * denominator
  let ceilingDistance := (floor + 1) * denominator - exact
  match inside floor && floor ≠ 0, inside (floor + 1) with
  | true, true =>
    some ⟨if floorDistance < ceilingDistance then floor else floor + 1, unit⟩
  | true, false => some ⟨floor, unit⟩
  | false, true => some ⟨floor + 1, unit⟩
  | false, false => none

/-- Try grids of `count`, `count + 1`, … digits below the order of the value. -/
def search (interval : Interval) (order : Int) : Nat → Nat → Decimal
  | 0, _ => ⟨interval.value, 0⟩
  | fuel + 1, count =>
    match onGrid? interval (order - count) with
    | some decimal => decimal
    | none => search interval order fuel (count + 1)

def ofParts (significand : Nat) (exponent : Int) : Decimal :=
  if significand = 0 then ⟨0, 0⟩
  else
    let interval := intervalOf significand exponent
    let order := decimalOrder (interval.value * powerUp 2 interval.exponent)
      (powerDown 2 interval.exponent)
    (search interval order 18 1).trimZeros 400

end Shortest

namespace FloatText

def digitsOf (value : Nat) : String :=
  String.ofList (Nat.toDigits 10 value)

def positionalDecimal (decimal : Decimal) : String :=
  let digits := Nat.toDigits 10 decimal.digits
  if 0 ≤ decimal.exponent then
    String.ofList (digits ++ List.replicate decimal.exponent.toNat '0')
  else
    let places := (-decimal.exponent).toNat
    if places < digits.length then
      String.ofList (digits.take (digits.length - places) ++ '.' ::
        digits.drop (digits.length - places))
    else
      String.ofList ('0' :: '.' :: List.replicate (places - digits.length) '0' ++ digits)

def signed (negative : Bool) (text : String) : String :=
  if negative then "-" ++ text else text

/-- Shortest positional text; a whole number has no point. -/
def positional (value : Float) : String :=
  let parts := Binary64.ofFloat value
  match parts.magnitude with
  | .notANumber => "NaN"
  | .infinite => signed parts.negative "inf"
  | .finite significand exponent =>
    signed parts.negative
      (if significand = 0 then "0" else positionalDecimal (Shortest.ofParts significand exponent))

/-- The integer that a finite double equals, when it is whole and below `10 ^ 16`. -/
def smallWhole? (significand : Nat) (exponent : Int) : Option Nat :=
  let numerator := significand * Shortest.powerUp 2 exponent
  let denominator := Shortest.powerDown 2 exponent
  if numerator % denominator = 0 ∧ numerator / denominator < Nat.pow 10 16 then
    some (numerator / denominator)
  else none

def literal (value : Float) : String :=
  let parts := Binary64.ofFloat value
  match parts.magnitude with
  | .finite significand exponent =>
    match smallWhole? significand exponent with
    | some whole => signed parts.negative (digitsOf whole ++ ".0")
    | none => positional value
  | _ => positional value

end FloatText

end HybridShell
