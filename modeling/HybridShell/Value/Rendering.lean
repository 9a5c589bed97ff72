import HybridShell.Text.Quoted
import HybridShell.Value.Basic

/-!
# The text of values

The plain text of a pipeline is its output, which only the one who waited for
it knows.
-/

namespace HybridShell

namespace Value

def quotedCharacter : Char → List Char
  | '\\' => ['\\', '\\']
  | '\'' => ['\\', '\'']
  | '\n' => ['\\', 'n']
  | other => [other]

def quotedText (text : String) : String :=
  String.ofList ('\'' :: (text.toList.flatMap quotedCharacter ++ ['\'']))

mutual

def repr : Value → String
  | none => "None"
  | bool true => "True"
  | bool false => "False"
  | int value => toString value.toInt
  | float value => FloatText.literal value
  | str text => quotedText text
  | list items => Text.bracketed (reprItems items)
  | pipeline handle => "CommandPipeline(args=" ++ Text.quotedLists handle.arguments ++ ")"
  | function defined => "<function " ++ defined.name ++ ">"
  | builtin known => "<built-in function " ++ known.name ++ ">"

def reprItems : List Value → List String
  | [] => []
  | first :: rest => repr first :: reprItems rest

end

def text (output : PipelineHandle → String) : Value → String
  | str text => text
  | pipeline handle => output handle
  | value => value.repr

def spliceArguments (output : PipelineHandle → String) : Value → List String
  | none => []
  | list items => items.map (text output)
  | value => [value.text output]

end Value

end HybridShell
