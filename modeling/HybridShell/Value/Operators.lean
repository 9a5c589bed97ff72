import HybridShell.Number.Reading
import HybridShell.Text.Search
import HybridShell.Value.Basic
import HybridShell.Value.Fault

/-!
# Operators

Arithmetic on integers is exact or fails; as soon as one operand is a float
or a truth value, both are taken as floats.  Values of different kinds, and
floats that are not numbers, have no order.
-/

namespace HybridShell

namespace Value

/-- A number as a float; truth values are numbers here. -/
def toFloat? : Value → Option Float
  | int value => some value.toFloat
  | float value => some value
  | bool value => some (if value then 1 else 0)
  | _ => Option.none

def floatOrder? (left right : Float) : Option Ordering :=
  if left < right then some .lt
  else if left == right then some .eq
  else if right < left then some .gt
  else Option.none

def numberOrder? (left right : Value) : Option Ordering :=
  match left.toFloat?, right.toFloat? with
  | some left, some right => floatOrder? left right
  | _, _ => Option.none

def textOrder : List Char → List Char → Ordering
  | [], [] => .eq
  | [], _ :: _ => .lt
  | _ :: _, [] => .gt
  | left :: lefts, right :: rights =>
    match compare left.toNat right.toNat with
    | .eq => textOrder lefts rights
    | other => other

mutual

def order? : Value → Value → Option Ordering
  | int left, int right => some (compare left.toInt right.toInt)
  | str left, str right => some (textOrder left.toList right.toList)
  | list left, list right => orderItems? left right
  | left, right => numberOrder? left right

/-- The order of two lists: the first items that differ decide, then the lengths. -/
def orderItems? : List Value → List Value → Option Ordering
  | [], [] => some .eq
  | [], _ :: _ => some .lt
  | _ :: _, [] => some .gt
  | left :: lefts, right :: rights =>
    match order? left right with
    | Option.none => Option.none
    | some .eq => orderItems? lefts rights
    | some other => some other

end

end Value

namespace BinaryOp

def symbol : BinaryOp → String
  | add => "+"
  | sub => "-"
  | mul => "*"
  | div => "/"
  | floorDiv => "//"
  | mod => "%"
  | eq => "=="
  | ne => "!="
  | lt => "<"
  | le => "<="
  | gt => ">"
  | ge => ">="
  | mem => "in"

end BinaryOp

namespace Value

variable (op : BinaryOp)

def unsupported (left right : Value) : HostFault :=
  .type (.operands op.symbol left.typeName right.typeName)

def exactly (result : Option Int64) : Except HostFault Value :=
  match result with
  | some value => .ok (int value)
  | Option.none => .error (.value .overflow)

def integerArithmetic (left right : Int64) : Except HostFault Value :=
  match op with
  | .add => exactly (Word64.add? left right)
  | .sub => exactly (Word64.sub? left right)
  | .mul => exactly (Word64.mul? left right)
  | .div =>
    if right = 0 then .error (.value .divisionByZero)
    else .ok (float (left.toFloat / right.toFloat))
  | .floorDiv =>
    if right = 0 then .error (.value .divisionByZero)
    else exactly (Word64.floorDiv? left right)
  | .mod =>
    if right = 0 then .error (.value .divisionByZero)
    else exactly (Word64.floorMod? left right)
  | _ => .error (.value .overflow)

def floatArithmetic? (left right : Float) : Option (Except HostFault Value) :=
  match op with
  | .add => some (.ok (float (left + right)))
  | .sub => some (.ok (float (left - right)))
  | .mul => some (.ok (float (left * right)))
  | .div =>
    some (if right == 0 then .error (.value .floatDivisionByZero)
      else .ok (float (left / right)))
  | .floorDiv =>
    some (if right == 0 then .error (.value .floatDivisionByZero)
      else .ok (float (left / right).floor))
  | .mod =>
    some (if right == 0 then .error (.value .floatDivisionByZero)
      else .ok (float (left - right * (left / right).floor)))
  | _ => Option.none

def arithmetic (left right : Value) : Except HostFault Value :=
  match left, right with
  | int left, int right => integerArithmetic op left right
  | left, right =>
    match left.toFloat?, right.toFloat? with
    | some first, some second =>
      (floatArithmetic? op first second).getD (.error (unsupported op left right))
    | _, _ => .error (unsupported op left right)

/-- Several copies of a list one after the other; none for a negative count. -/
def repeated {α : Type} (items : List α) (count : Int64) : List α :=
  (List.replicate count.toInt.toNat items).flatten

def ordered (left right : Value) (holds : Ordering → Bool) : Except HostFault Value :=
  match order? left right with
  | some ordering => .ok (bool (holds ordering))
  | Option.none => .error (unsupported op left right)

def contained (item container : Value) : Except HostFault Value :=
  match container, item with
  | str text, str part => .ok (bool (Text.occursIn part.toList text.toList))
  | str _, other => .error (.type (.containmentInText other.typeName))
  | list items, item => .ok (bool (items.any (equal · item)))
  | other, _ => .error (.type (.containment other.typeName))

def binary (left right : Value) : Except HostFault Value :=
  match op with
  | .eq => .ok (bool (equal left right))
  | .ne => .ok (bool (!equal left right))
  | .lt => ordered op left right (· == .lt)
  | .le => ordered op left right (· != .gt)
  | .gt => ordered op left right (· == .gt)
  | .ge => ordered op left right (· != .lt)
  | .mem => contained left right
  | .add =>
    match left, right with
    | str left, str right => .ok (str (left ++ right))
    | list left, list right => .ok (list (left ++ right))
    | left, right => arithmetic op left right
  | .mul =>
    match left, right with
    | str text, int count => .ok (str (String.ofList (repeated text.toList count)))
    | int count, str text => .ok (str (String.ofList (repeated text.toList count)))
    | list items, int count => .ok (list (repeated items count))
    | left, right => arithmetic op left right
  | _ => arithmetic op left right

/-- The negative of a number; the least integer, which has none in range, is left as it is. -/
def negate : Value → Except HostFault Value
  | int value => .ok (int (-value))
  | float value => .ok (float (-value))
  | other => .error (.type (.negation other.typeName))

/-- The position that an index stands for; a negative one counts from the end. -/
def positionIn (length : Nat) : Value → Except HostFault Nat
  | int index =>
    let position := if index.toInt < 0 then (length : Int) + index.toInt else index.toInt
    if position < 0 ∨ (length : Int) ≤ position then .error (.position .outOfRange)
    else .ok position.toNat
  | other => .error (.type (.positionNotInteger other.typeName))

def subscript (base index : Value) : Except HostFault Value :=
  match base with
  | list items =>
    match positionIn items.length index with
    | .error fault => .error fault
    | .ok position => .ok (items[position]?.getD none)
  | str text =>
    match positionIn text.length index with
    | .error fault => .error fault
    | .ok position => .ok (str (String.ofList (text.toList[position]?.toList)))
  | other => .error (.type (.notSubscriptable other.typeName))

end Value

end HybridShell
