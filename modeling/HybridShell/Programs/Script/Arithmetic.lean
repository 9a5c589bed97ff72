import HybridShell.Dictionary
import HybridShell.Number.Reading
import HybridShell.Programs.Escape
import HybridShell.Programs.Script.Token

/-!
# Arithmetic of scripts

Formulas over 64-bit numbers and variables, with the operators of a common
family in its usual ranks.  Evaluating a formula may change variables.
-/

namespace HybridShell

inductive Formula where
  | number (value : Int64)
  | named (name : String)
  | unary (operator : String) (operand : Formula)
  | binary (operator : String) (left right : Formula)
  | choice (condition whenTrue whenFalse : Formula)
  /-- Set a variable to a value, or to the result of an operator on its old value. -/
  | assign (name : String) (operator : Option String) (value : Formula)
  deriving Repr, DecidableEq

inductive FormulaFault where
  | malformed
  | overlong
  | divisionByZero
  | noNumber (text : String)
  deriving Repr, DecidableEq

namespace FormulaFault

def message (text : String) : FormulaFault → String
  | malformed => "arithmetic expression: expecting primary: \"" ++ text ++ "\""
  | overlong => "arithmetic expression: expecting EOF: \"" ++ text ++ "\""
  | divisionByZero => "arithmetic expression: division by zero: \"" ++ text ++ "\""
  | noNumber value => "Illegal number: " ++ value

end FormulaFault

namespace Formula

inductive Item where
  | number (value : Int64)
  | name (text : String)
  | operator (text : String)
  deriving Repr, DecidableEq

def longOperators : List String :=
  ["<<=", ">>=", "==", "!=", "<=", ">=", "&&", "||", "<<", ">>", "+=", "-=", "*=", "/=", "%=",
    "&=", "^=", "|="]

def saturated (value : Nat) : Int64 :=
  Int64.ofInt (min (value : Int) Int64.maxValue.toInt)

def constant? : List Char → Option Int64
  | '0' :: 'x' :: digits | '0' :: 'X' :: digits =>
    if !digits.isEmpty && digits.all fun digit => (Escape.hexDigit? digit).isSome then
      some (saturated (Escape.number 16 digits))
    else none
  | '0' :: digits =>
    if digits.all Escape.isOctal then some (saturated (Escape.number 8 digits)) else none
  | digits => (Reading.natural? digits).map saturated

def items : Nat → List Char → Option (List Item)
  | 0, _ => some []
  | _, [] => some []
  | count + 1, character :: rest => do
    let all := character :: rest
    if character.isWhitespace then items count rest
    else if character.isDigit then
      let digits := all.takeWhile Char.isAlphanum
      let value ← constant? digits
      some (.number value :: (← items count (all.drop digits.length)))
    else if ScriptToken.isNameCharacter character then
      let name := all.takeWhile ScriptToken.isNameCharacter
      some (.name (String.ofList name) :: (← items count (all.drop name.length)))
    else
      match longOperators.find? fun operator => operator.toList.isPrefixOf all with
      | some operator =>
        some (.operator operator :: (← items count (all.drop operator.length)))
      | none => some (.operator (String.singleton character) :: (← items count rest))

def ranks : List (List String) :=
  [["||"], ["&&"], ["|"], ["^"], ["&"], ["==", "!="], ["<=", ">=", "<", ">"], ["<<", ">>"],
    ["+", "-"], ["*", "/", "%"]]

def isComparison (text : String) : Bool :=
  ["==", "!=", "<=", ">="].contains text

/-- The operator of a compound assignment; none for the plain one. -/
def assignment? : Item → Option (Option String)
  | .operator "=" => some none
  | .operator text =>
    if longOperators.contains text && text.endsWith "=" && !isComparison text
    then some (some (text.dropEnd 1).toString)
    else none
  | _ => none

abbrev Reader := StateT (List Item) Option Formula

mutual

def read : Nat → Reader
  | 0 => failure
  | steps + 1 => do
    match ← get with
    | .name name :: sign :: rest =>
      match assignment? sign with
      | some operator =>
        set rest
        return .assign name operator (← read steps)
      | none => readChoice steps
    | _ => readChoice steps

def readChoice : Nat → Reader
  | 0 => failure
  | steps + 1 => do
    let condition ← readRanked steps ranks
    match ← get with
    | .operator "?" :: after =>
      set after
      let whenTrue ← read steps
      match ← get with
      | .operator ":" :: others =>
        set others
        return .choice condition whenTrue (← readChoice steps)
      | _ => failure
    | _ => return condition

def readRanked : Nat → List (List String) → Reader
  | 0, _ => failure
  | steps + 1, [] => readOperand steps
  | steps + 1, operators :: stronger => do
    readRankedRest steps operators stronger (← readRanked steps stronger)

def readRankedRest : Nat → List String → List (List String) → Formula → Reader
  | 0, _, _, _ => failure
  | steps + 1, operators, stronger, first => do
    match ← get with
    | .operator text :: after =>
      if operators.contains text then
        set after
        readRankedRest steps operators stronger (.binary text first (← readRanked steps stronger))
      else return first
    | _ => return first

def readOperand : Nat → Reader
  | 0 => failure
  | steps + 1 => do
    let tokens ← get
    set tokens.tail
    match tokens with
    | .number value :: _ => return .number value
    | .name name :: _ => return .named name
    | .operator "(" :: _ =>
      let inner ← read steps
      match ← get with
      | .operator ")" :: left =>
        set left
        return inner
      | _ => failure
    | .operator text :: _ =>
      if ["-", "+", "!", "~"].contains text then return .unary text (← readOperand steps)
      else failure
    | [] => failure

end

def ofText (text : String) : Except FormulaFault Formula :=
  match items (text.length + 1) text.toList with
  | none => .error .malformed
  | some [] => .ok (.number 0)
  | some tokens =>
    match read (24 * (tokens.length + 1)) tokens with
    | some (formula, []) => .ok formula
    | some _ => .error .overlong
    | none => .error .malformed

def truth (condition : Bool) : Int64 :=
  if condition then 1 else 0

def apply (operator : String) (left right : Int64) : Except FormulaFault Int64 :=
  if right = 0 && ["/", "%"].contains operator then .error .divisionByZero
  else
    match operator with
    | "+" => .ok (left + right)
    | "-" => .ok (left - right)
    | "*" => .ok (left * right)
    | "/" => .ok (left / right)
    | "%" => .ok (left % right)
    | "<<" => .ok (left <<< right)
    | ">>" => .ok (left >>> right)
    | "&" => .ok (left &&& right)
    | "^" => .ok (left ^^^ right)
    | "|" => .ok (left ||| right)
    | "==" => .ok (truth (left == right))
    | "!=" => .ok (truth (left != right))
    | "<" => .ok (truth (left < right))
    | "<=" => .ok (truth (left ≤ right))
    | ">" => .ok (truth (right < left))
    | ">=" => .ok (truth (right ≤ left))
    | "&&" | "||" => .ok (truth (right != 0))
    | _ => .error .malformed

def applyUnary (operator : String) (value : Int64) : Int64 :=
  match operator with
  | "-" => 0 - value
  | "!" => truth (value == 0)
  | "~" => -1 - value
  | _ => value

/-- The number that a variable holds; one that holds nothing is zero. -/
def valueOf (bindings : Dictionary String) (name : String) : Except FormulaFault Int64 :=
  let text := (bindings.get? name).getD ""
  let trimmed := (text.toList.dropWhile Char.isWhitespace).reverse.dropWhile Char.isWhitespace
  match Reading.splitSign trimmed.reverse with
  | (_, []) => if trimmed.isEmpty then .ok 0 else .error (.noNumber text)
  | (negative, digits) =>
    match constant? digits with
    | some value => .ok (if negative then 0 - value else value)
    | none => .error (.noNumber text)

def evaluate (bindings : Dictionary String) :
    Formula → Except FormulaFault (Int64 × Dictionary String)
  | number value => .ok (value, bindings)
  | named name => do .ok (← valueOf bindings name, bindings)
  | unary operator operand => do
    let (value, after) ← evaluate bindings operand
    .ok (applyUnary operator value, after)
  | binary operator left right => do
    let (first, middle) ← evaluate bindings left
    if operator = "&&" && first = 0 then .ok (0, middle)
    else if operator = "||" && first ≠ 0 then .ok (1, middle)
    else
      let (second, after) ← evaluate middle right
      .ok (← apply operator first second, after)
  | choice condition whenTrue whenFalse => do
    let (tested, middle) ← evaluate bindings condition
    if tested ≠ 0 then evaluate middle whenTrue else evaluate middle whenFalse
  | assign name operator formula => do
    let (value, after) ← evaluate bindings formula
    let result ← match operator with
      | none => .ok value
      | some text => do apply text (← valueOf after name) value
    .ok (result, after.insert name (toString result.toInt))

def evaluateText (bindings : Dictionary String) (text : String) :
    Except String (Int64 × Dictionary String) :=
  ((ofText text).bind (evaluate bindings)).mapError (FormulaFault.message text)

end Formula

end HybridShell
