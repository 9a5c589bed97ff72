import HybridShell.Text.Case
import HybridShell.Text.Search
import HybridShell.Value.Fault
import HybridShell.Value.Rendering

/-!
# Methods of texts and lists

Joining and filling a template need the plain text of other values, which may
take waiting.
-/

namespace HybridShell

namespace Value

def ofTexts (texts : List (List Char)) : Value :=
  list (texts.map fun text => str (String.ofList text))

variable (method : String)

def textArgument : Value → Except HostFault (List Char)
  | str text => .ok text.toList
  | other => .error (.type (.argumentNotText method other.typeName))

def wrongCount (arguments : List Value) : HostFault :=
  .type (.methodArguments method arguments.length)

/-- The pieces of a text, between blanks or between the occurrences of a separator. -/
def splitMethod (text : List Char) (arguments : List Value) : Except HostFault Value :=
  match arguments with
  | [] => .ok (ofTexts (Text.splitBlanks text))
  | [none] => .ok (ofTexts (Text.splitBlanks text))
  | [separator] => do
    let separator ← textArgument "split" separator
    if nonempty : separator ≠ [] then .ok (ofTexts (Text.splitOn separator nonempty text))
    else .error (.value .emptySeparator)
  | _ => .error (wrongCount "split" arguments)

def testMethod (arguments : List Value) (test : List Char → Bool) : Except HostFault Value :=
  match arguments with
  | [argument] => do return bool (test (← textArgument method argument))
  | _ => .error (wrongCount method arguments)

def replaceMethod (text : List Char) (arguments : List Value) : Except HostFault Value :=
  match arguments with
  | [needle, replacement] => do
    let needle ← textArgument "replace" needle
    let replacement ← textArgument "replace" replacement
    return str (String.ofList (Text.replaceAll needle replacement text))
  | _ => .error (wrongCount "replace" arguments)

/-- The methods of texts that need no other value's text; none for an unknown name. -/
def textMethod? (text : String) (method : String) (arguments : List Value) :
    Option (Except HostFault Value) :=
  let characters := text.toList
  match method with
  | "strip" => some (.ok (str (String.ofList (Text.trim characters))))
  | "lstrip" => some (.ok (str (String.ofList (Text.trimLeft characters))))
  | "rstrip" => some (.ok (str (String.ofList (Text.trimRight characters))))
  | "upper" => some (.ok (str (Case.upper text)))
  | "lower" => some (.ok (str (Case.lower text)))
  | "split" => some (splitMethod characters arguments)
  | "splitlines" => some (.ok (ofTexts (Text.lines characters)))
  | "startswith" => some (testMethod method arguments fun front => front.isPrefixOf characters)
  | "endswith" => some (testMethod method arguments fun back => back.isSuffixOf characters)
  | "replace" => some (replaceMethod characters arguments)
  | _ => Option.none

section

variable {m : Type → Type} [Monad m]

def joinMethod (plain : Value → m String) (separator : String) (arguments : List Value) :
    m (Except HostFault Value) :=
  match arguments with
  | [list items] => do
    let texts ← items.mapM plain
    return .ok (str (separator.intercalate texts))
  | [_] => return .error (.type .joinNotList)
  | _ => return .error (wrongCount "join" arguments)

/-- The pieces of a template after the first, each behind the text of an argument. -/
def fillPieces (plain : Value → m String) :
    List (List Char) → List Value → m (Except HostFault (List Char))
  | [], _ => return .ok []
  | _ :: _, [] => return .error (.position .notEnoughArguments)
  | piece :: pieces, argument :: arguments => do
    let text ← plain argument
    match ← fillPieces plain pieces arguments with
    | .error fault => return .error fault
    | .ok rest => return .ok (text.toList ++ piece ++ rest)

def formatMethod (plain : Value → m String) (template : String) (arguments : List Value) :
    m (Except HostFault Value) := do
  match Text.splitOn ['\x7b', '\x7d'] (by simp) template.toList with
  | [] => return .ok (str "")
  | first :: pieces =>
    match ← fillPieces plain pieces arguments with
    | .error fault => return .error fault
    | .ok rest => return .ok (str (String.ofList (first ++ rest)))

end

def listMethod (items : List Value) (method : String) (arguments : List Value) :
    Except HostFault Value :=
  match method, arguments with
  | "index", [item] =>
    match items.findIdx? (equal · item) with
    | some position => .ok (int (Int64.ofNat position))
    | Option.none => .error (.value (.notInList item.repr))
  | "count", [item] => .ok (int (Int64.ofNat (items.countP (equal · item))))
  | "index", _ => .error (wrongCount method arguments)
  | "count", _ => .error (wrongCount method arguments)
  | _, _ => .error (.type (.noMethod "list" method))

end Value

end HybridShell
