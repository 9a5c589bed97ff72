/-!
# What can go wrong with values

Operations on values fail because of the types of their operands, because of
the operands themselves, or because of a position that is not there.
-/

namespace HybridShell

inductive TypeFault where
  | negation (operand : String)
  | operands (symbol left right : String)
  | containmentInText (left : String)
  | containment (right : String)
  | noAttribute (type name : String)
  | noMethod (type name : String)
  | notCallable (type : String)
  | notIterable (type : String)
  | notSubscriptable (type : String)
  | positionNotInteger (type : String)
  | unnamedItemAssignment
  | noItemAssignment (type : String)
  | functionArguments (name : String) (expected given : Nat)
  | builtinArguments (name : String) (expected given : Nat)
  | methodArguments (name : String) (given : Nat)
  | rangeArguments
  | argumentNotText (name type : String)
  | argumentNotInteger (name type : String)
  | argumentNotNumeric (name type : String)
  | joinNotList
  | noLength (type : String)
  | noAlias (type : String)
  deriving Repr, DecidableEq

namespace TypeFault

def message : TypeFault → String
  | negation operand => "bad operand type for unary -: '" ++ operand ++ "'"
  | operands symbol left right =>
    "unsupported operand type(s) for " ++ symbol ++ ": '" ++ left ++ "' and '" ++ right ++ "'"
  | containmentInText left => "'in <string>' requires string as left operand, not " ++ left
  | containment right => "argument of type '" ++ right ++ "' is not iterable"
  | noAttribute type name => "'" ++ type ++ "' object has no attribute '" ++ name ++ "'"
  | noMethod type name => "'" ++ type ++ "' object has no method '" ++ name ++ "'"
  | notCallable type => "'" ++ type ++ "' object is not callable"
  | notIterable type => "'" ++ type ++ "' object is not iterable"
  | notSubscriptable type => "'" ++ type ++ "' object is not subscriptable"
  | positionNotInteger type => "indices must be integers, not " ++ type
  | unnamedItemAssignment => "only named lists support item assignment"
  | noItemAssignment type => "'" ++ type ++ "' object does not support item assignment"
  | functionArguments name expected given =>
    name ++ "() takes " ++ toString expected ++ " arguments but " ++ toString given
      ++ " were given"
  | builtinArguments name expected given =>
    name ++ "() takes " ++ toString expected ++ " argument" ++ (if expected = 1 then "" else "s")
      ++ " (" ++ toString given ++ " given)"
  | methodArguments name given => name ++ "() got " ++ toString given ++ " arguments"
  | rangeArguments => "range expected 1 to 3 arguments"
  | argumentNotText name type => name ++ "() argument must be str, not " ++ type
  | argumentNotInteger name type => name ++ "() expects int, not " ++ type
  | argumentNotNumeric name type =>
    name ++ "() argument must be a string or a number, not '" ++ type ++ "'"
  | joinNotList => "join() expects a list"
  | noLength type => "object of type '" ++ type ++ "' has no len()"
  | noAlias type => "cannot make an alias from '" ++ type ++ "'"

end TypeFault

inductive ValueFault where
  | divisionByZero
  | floatDivisionByZero
  | overflow
  | notInteger (literal : String)
  | notFloat (literal : String)
  | zeroStep
  | emptySeparator
  | notInList (item : String)
  deriving Repr, DecidableEq

namespace ValueFault

def message : ValueFault → String
  | divisionByZero => "division by zero"
  | floatDivisionByZero => "float division by zero"
  | overflow => "integer overflow"
  | notInteger literal => "invalid literal for int(): " ++ literal
  | notFloat literal => "could not convert string to float: " ++ literal
  | zeroStep => "range() arg 3 must not be zero"
  | emptySeparator => "empty separator"
  | notInList item => item ++ " is not in list"

end ValueFault

inductive PositionFault where
  | outOfRange
  | notEnoughArguments
  deriving Repr, DecidableEq

namespace PositionFault

def message : PositionFault → String
  | outOfRange => "index out of range"
  | notEnoughArguments => "not enough arguments for format string"

end PositionFault

inductive HostFault where
  | type (fault : TypeFault)
  | value (fault : ValueFault)
  | position (fault : PositionFault)
  | unbound (name : String)
  deriving Repr, DecidableEq

namespace HostFault

def message : HostFault → String
  | type fault => "type error: " ++ fault.message
  | value fault => "value error: " ++ fault.message
  | position fault => "index error: " ++ fault.message
  | unbound name => "name '" ++ name ++ "' is not defined"

end HostFault

end HybridShell
