import HybridShell.Evaluation.Run
import HybridShell.Value.Conversion

/-!
# Built-in functions
-/

namespace HybridShell

namespace Builtin

def single (builtin : Builtin) (arguments : List Value) : Run Value :=
  match arguments with
  | [argument] => pure argument
  | _ => throw (.host (.type (.builtinArguments builtin.name 1 arguments.length)))

def environmentValue (name : String) : Run Value := do
  return (((← get).session.env? name).map Value.str).getD .none

def endShell (arguments : List Value) : Run Value := do
  match arguments with
  | [] => throw (.exit 0)
  | first :: _ =>
    let code ← Run.ofHost (Value.integerArgument "exit" first)
    throw (.exit (Value.lowWord code))

variable (inner : Interpreter)

/-- Run a file; its names are those of the whole program. -/
def runFile (name : String) : Run Value := do
  let shell ← get
  match shell.machine.tree.readText (Path.join shell.session.directory name) with
  | .error error => throw (.system error)
  | .ok text => Run.outsideCalls (inner.host (.fileText text))

def addAlias (name meaning : Value) : Run Value := do
  let name ← Run.plainText inner.rounds name
  let defined ← match meaning with
    | .str text => Run.ofParse (Alias.ofText text)
    | .list words => Alias.template <$> words.mapM (Run.plainText inner.rounds)
    | .function function => pure (.nested (.function function))
    | other => throw (.host (.type (.noAlias other.typeName)))
  Action.modifySession fun session =>
    { session with aliases := session.aliases.insert name defined }
  return .none

def forgetAlias (name : Value) : Run Value := do
  let name ← Run.plainText inner.rounds name
  let known := (← get).session.aliases.contains name
  Action.modifySession fun session => { session with aliases := session.aliases.erase name }
  return .bool known

def call (builtin : Builtin) (arguments : List Value) : Run Value := do
  match builtin with
  | print =>
    let texts ← arguments.mapM (Run.plainText inner.rounds)
    modify (·.writeOutput (" ".intercalate texts ++ "\n"))
    return .none
  | len => Run.ofHost (Value.size (← builtin.single arguments))
  | str => return .str (← Run.plainText inner.rounds (← builtin.single arguments))
  | repr => return .str (← builtin.single arguments).repr
  | bool => return .bool (← Run.truthy inner.rounds (← builtin.single arguments))
  | type => return .str (← builtin.single arguments).typeName
  | int => Run.ofHost (Value.toInteger (← builtin.single arguments))
  | float => Run.ofHost (Value.toFloating (← builtin.single arguments))
  | list => return .list (← Run.items inner.rounds (← builtin.single arguments))
  | range => Run.ofHost (Value.range arguments)
  | env =>
    environmentValue (← Run.plainText inner.rounds (← builtin.single arguments))
  | exit => endShell arguments
  | source =>
    runFile inner (← Run.plainText inner.rounds (← builtin.single arguments))
  | defineAlias =>
    match arguments with
    | [name, meaning] => addAlias inner name meaning
    | _ => throw (.host (.type (.builtinArguments "alias" 2 arguments.length)))
  | unalias => forgetAlias inner (← builtin.single arguments)

end Builtin

end HybridShell
