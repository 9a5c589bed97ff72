import HybridShell.Number.Shortest

/-!
# Fractions in decimal digits

A fraction is rounded to the nearest, and from the middle to the even
neighbour.
-/

namespace HybridShell

structure Fraction where
  numerator : Nat
  denominator : Nat
  deriving Repr, DecidableEq

namespace Fraction

variable (value : Fraction)

def scaled (base : Nat) (exponent : Int) : Fraction :=
  ⟨value.numerator * Shortest.powerUp base exponent,
    value.denominator * Shortest.powerDown base exponent⟩

def ofDecimal (mantissa : Nat) (exponent : Int) : Fraction :=
  (⟨mantissa, 1⟩ : Fraction).scaled 10 exponent

def isZero : Bool :=
  value.numerator == 0

/-- The nearest natural number; in the middle, the even one. -/
def nearest : Nat :=
  let quotient := value.numerator / value.denominator
  let twice := 2 * (value.numerator % value.denominator)
  if twice < value.denominator || (twice = value.denominator && quotient % 2 = 0) then quotient
  else quotient + 1

/-- The largest `k` with `2 ^ k` not above the fraction, which is not zero. -/
def binaryOrder : Int :=
  let guess : Int := (value.numerator.log2 : Int) - (value.denominator.log2 : Int)
  let reduced := value.scaled 2 (-guess)
  if reduced.numerator < reduced.denominator then guess - 1 else guess

def rounded (bits : Nat) : Fraction :=
  if value.isZero then value
  else
    let shift : Int := (bits : Int) - 1 - value.binaryOrder
    (⟨(value.scaled 2 shift).nearest, 1⟩ : Fraction).scaled 2 (-shift)

/-- The largest `k` with `10 ^ k` not above the fraction; zero has order zero. -/
def decimalOrder : Int :=
  if value.isZero then 0
  else Shortest.decimalOrder value.numerator value.denominator - 1

def pointed (digits : List Char) (places : Nat) (keepsPoint : Bool) : List Char :=
  let padded := List.replicate (places + 1 - digits.length) '0' ++ digits
  let whole := padded.take (padded.length - places)
  if places = 0 && !keepsPoint then whole else whole ++ '.' :: padded.drop whole.length

def fixedText (places : Nat) (keepsPoint : Bool) : List Char :=
  pointed (Nat.toDigits 10 (value.scaled 10 places).nearest) places keepsPoint

def mantissaDigits (places : Nat) : List Char × Int :=
  let order := value.decimalOrder
  let digits := Nat.toDigits 10 (value.scaled 10 ((places : Int) - order)).nearest
  if digits.length ≤ places + 1 then
    (digits ++ List.replicate (places + 1 - digits.length) '0', order)
  else (digits.take (places + 1), order + 1)

def exponentText (exponent : Int) : List Char :=
  let digits := Nat.toDigits 10 exponent.natAbs
  'e' :: (if exponent < 0 then '-' else '+') :: List.replicate (2 - digits.length) '0' ++ digits

def scientificText (places : Nat) (keepsPoint : Bool) : List Char :=
  let (digits, exponent) := value.mantissaDigits places
  pointed digits places keepsPoint ++ exponentText exponent

def withoutZeros (text : List Char) : List Char :=
  if text.contains '.' then
    let kept := (text.reverse.dropWhile (· = '0')).reverse
    if kept.getLast? = some '.' then kept.dropLast else kept
  else text

/-- The shorter text with a number of digits; zeros at the end are kept on request. -/
def generalText (digits : Nat) (keepsZeros : Bool) : List Char :=
  let places := digits - 1
  let exponent := (value.mantissaDigits places).2
  if exponent < -4 || (places : Int) < exponent then
    let (mantissa, _) := value.mantissaDigits places
    let text := pointed mantissa places keepsZeros
    (if keepsZeros then text else withoutZeros text) ++ exponentText exponent
  else
    let text := value.fixedText ((places : Int) - exponent).toNat keepsZeros
    if keepsZeros then text else withoutZeros text

end Fraction

end HybridShell
