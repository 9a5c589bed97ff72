/-!
# Reading numbers

Host integers are signed 64-bit words, and their arithmetic never wraps: the
operations compute over the integers first and then ask whether the result fits.
-/

namespace HybridShell

namespace Word64

def ofInt? (value : Int) : Option Int64 :=
  if Int64.minValue.toInt ≤ value ∧ value ≤ Int64.maxValue.toInt then some (Int64.ofInt value)
  else none

theorem ofInt?_eq_some_iff {value : Int} {word : Int64} :
    ofInt? value = some word ↔ word.toInt = value := by
  have least := Int64.toInt_minValue
  have greatest := Int64.toInt_maxValue
  unfold ofInt?
  constructor
  · intro fits
    split at fits
    · cases fits
      exact Int64.toInt_ofInt_of_le (by omega) (by omega)
    · cases fits
  · rintro rfl
    rw [if_pos ⟨word.minValue_le_toInt, word.toInt_le⟩, Int64.ofInt_toInt]

variable (left right : Int64)

def add? : Option Int64 :=
  ofInt? (left.toInt + right.toInt)

def sub? : Option Int64 :=
  ofInt? (left.toInt - right.toInt)

def mul? : Option Int64 :=
  ofInt? (left.toInt * right.toInt)

/-- The quotient that leaves a remainder which is not negative. -/
def euclideanDiv? : Option Int64 :=
  ofInt? (left.toInt / right.toInt)

def euclideanMod : Int64 :=
  .ofInt (left.toInt % right.toInt)

/--
The remainder with the sign of the dividend.  The one pair whose quotient
leaves the range, the least word and minus one, has no remainder either.
-/
def truncatedMod? : Option Int64 :=
  if left = Int64.minValue ∧ right = -1 then none else some (left % right)

def floorDiv? : Option Int64 :=
  (euclideanDiv? left right).map fun quotient =>
    if right < 0 ∧ euclideanMod left right ≠ 0 then quotient - 1 else quotient

/-- The remainder with the sign of the divisor. -/
def floorMod? : Option Int64 :=
  (truncatedMod? left right).map fun remainder =>
    if remainder ≠ 0 ∧ ¬ (remainder < 0 ↔ right < 0) then remainder + right else remainder

end Word64

namespace Reading

def digitsValue (digits : List Char) : Nat :=
  digits.foldl (fun value digit => value * 10 + (digit.toNat - '0'.toNat)) 0

variable (text : List Char)

def natural? : Option Nat :=
  if text ≠ [] ∧ text.all Char.isDigit then some (digitsValue text) else none

def splitSign : List Char → Bool × List Char
  | '-' :: rest => (true, rest)
  | '+' :: rest => (false, rest)
  | text => (false, text)

def integer? : Option Int :=
  let (negative, body) := splitSign text
  (natural? body).map fun value => if negative then -(value : Int) else value

def word64? : Option Int64 :=
  (integer? text).bind Word64.ofInt?

def word32? : Option Int32 :=
  (integer? text).bind fun value =>
    if Int32.minValue.toInt ≤ value ∧ value ≤ Int32.maxValue.toInt then some (Int32.ofInt value)
    else none

/--
The double nearest to `mantissa * 10 ^ exponent`.  Exponents far outside the
range of doubles are decided by the number of digits alone.
-/
def nearest (mantissa : Nat) (exponent : Int) : Float :=
  let order := exponent + ((Nat.toDigits 10 mantissa).length : Int)
  if mantissa = 0 then 0
  else if 400 < order then 1 / 0
  else if order < -400 then 0
  else if 0 ≤ exponent then Float.ofScientific mantissa false exponent.toNat
  else Float.ofScientific mantissa true (-exponent).toNat

/-- Digits with an optional point: the mantissa and the number of places after the point. -/
def mantissa? : Option (Nat × Nat) :=
  let whole := text.takeWhile Char.isDigit
  match text.dropWhile Char.isDigit with
  | [] => if whole = [] then none else some (digitsValue whole, 0)
  | '.' :: fraction =>
    if fraction.all Char.isDigit && !(whole.isEmpty && fraction.isEmpty) then
      some (digitsValue (whole ++ fraction), fraction.length)
    else none
  | _ => none

def splitExponent : List Char × Option (List Char) :=
  let isMark (character : Char) : Bool := character == 'e' || character == 'E'
  match text.dropWhile (!isMark ·) with
  | [] => (text, none)
  | _ :: exponent => (text.takeWhile (!isMark ·), some exponent)

def unsignedFloat? : Option Float := do
  let (body, exponentText) := splitExponent text
  let exponent ← match exponentText with
    | none => some 0
    | some digits => integer? digits
  let (mantissa, places) ← mantissa? body
  some (nearest mantissa (exponent - places))

def float? : Option Float :=
  let (negative, body) := splitSign text
  let lowered := String.ofList (body.map Char.toLower)
  let magnitude : Option Float :=
    if lowered = "inf" ∨ lowered = "infinity" then some (1 / 0)
    else if lowered = "nan" then some (0 / 0)
    else unsignedFloat? body
  magnitude.map fun value => if negative then -value else value

end Reading

end HybridShell
