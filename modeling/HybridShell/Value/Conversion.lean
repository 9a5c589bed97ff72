import HybridShell.Number.Reading
import HybridShell.Text.Search
import HybridShell.Value.Fault
import HybridShell.Value.Rendering

/-!
# Conversions

What the built-in functions compute from values alone.
-/

namespace HybridShell

namespace Value

def toInteger : Value → Except HostFault Value
  | int value => .ok (int value)
  | bool value => .ok (int (if value then 1 else 0))
  | float value => .ok (int value.toInt64)
  | str text =>
    match Reading.word64? (Text.trim text.toList) with
    | some value => .ok (int value)
    | Option.none => .error (.value (.notInteger (str text).repr))
  | other => .error (.type (.argumentNotNumeric "int" other.typeName))

def toFloating : Value → Except HostFault Value
  | int value => .ok (float value.toFloat)
  | float value => .ok (float value)
  | str text =>
    match Reading.float? (Text.trim text.toList) with
    | some value => .ok (float value)
    | Option.none => .error (.value (.notFloat (str text).repr))
  | other => .error (.type (.argumentNotNumeric "float" other.typeName))

def size : Value → Except HostFault Value
  | str text => .ok (int (Int64.ofNat text.length))
  | list items => .ok (int (Int64.ofNat items.length))
  | other => .error (.type (.noLength other.typeName))

/-- An integer argument of a built-in function; truth values are integers here. -/
def integerArgument (name : String) : Value → Except HostFault Int64
  | int value => .ok value
  | bool value => .ok (if value then 1 else 0)
  | other => .error (.type (.argumentNotInteger name other.typeName))

def stepCount (start stop step : Int) : Nat :=
  if 0 < step then ((stop - start + step - 1) / step).toNat
  else ((start - stop - step - 1) / (-step)).toNat

def progression (start stop step : Int64) : Except HostFault Value :=
  if step = 0 then .error (.value .zeroStep)
  else
    let count := stepCount start.toInt stop.toInt step.toInt
    .ok (list ((List.range count).map fun index =>
      int (Int64.ofInt (start.toInt + (index : Nat) * step.toInt))))

def range (arguments : List Value) : Except HostFault Value := do
  match arguments with
  | [stop] => progression 0 (← integerArgument "range" stop) 1
  | [start, stop] =>
    progression (← integerArgument "range" start) (← integerArgument "range" stop) 1
  | [start, stop, step] =>
    progression (← integerArgument "range" start) (← integerArgument "range" stop)
      (← integerArgument "range" step)
  | _ => .error (.type .rangeArguments)

end Value

end HybridShell
