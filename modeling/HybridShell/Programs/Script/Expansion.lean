import HybridShell.Programs.Script.Arithmetic
import HybridShell.Programs.Script.Pattern
import HybridShell.Programs.Script.State

/-!
# Expanding the words of scripts

Parameters, substitutions and formulas are replaced by text.  Text that came
from outside quotes is divided into fields, and a field with live wildcards
stands for the paths that match it.
-/

namespace HybridShell

structure Fields where
  finished : List (List Glyph)
  open? : Option (List Glyph)
  afterBlank : Bool

namespace Fields

def start : Fields := ⟨[], none, false⟩

variable (fields : Fields)

def extend (text : String) (quoted : Bool) : Fields :=
  let front := fields.open?.getD []
  { fields with
    open? := some (text.toList.foldl (fun glyphs character => ⟨character, quoted⟩ :: glyphs) front)
    afterBlank := false }

def finish : Fields :=
  match fields.open? with
  | none => fields
  | some glyphs => ⟨glyphs.reverse :: fields.finished, none, false⟩

def extendAll (fields : Fields) : List String → Fields
  | [] => fields
  | [text] => fields.extend text true
  | text :: rest => extendAll (fields.extend text true).finish rest

def isBlank (character : Char) : Bool :=
  character = ' ' || character = '\t' || character = '\n'

def divide (separators : List Char) (fields : Fields) (character : Char) : Fields :=
  if !separators.contains character then
    { fields with
      open? := some (⟨character, false⟩ :: fields.open?.getD [])
      afterBlank := false }
  else
    match fields.open? with
    | some glyphs => ⟨glyphs.reverse :: fields.finished, none, isBlank character⟩
    | none =>
      if isBlank character then fields
      else if fields.afterBlank then { fields with afterBlank := false }
      else { fields with finished := [] :: fields.finished }

def extendDivided (separators : List Char) (text : String) : Fields :=
  text.toList.foldl (divide separators) fields

def toList : List (List Glyph) :=
  fields.finish.finished.reverse

end Fields

structure Expanding where
  state : ScriptState
  fields : Fields
  divides : Bool
  dividesLiterals : Bool

namespace Expanding

variable (expanding : Expanding)

def add (text : String) (quoted : Bool) : Expanding :=
  { expanding with
    fields :=
      if quoted || !expanding.divides then
        if text.isEmpty && !quoted then expanding.fields else expanding.fields.extend text quoted
      else expanding.fields.extendDivided expanding.state.separators text }

def addLiteral (text : String) (quoted : Bool) : Expanding :=
  if expanding.dividesLiterals && !quoted then expanding.add text false
  else { expanding with fields := expanding.fields.extend text quoted }

def addArguments (joined quoted : Bool) : Expanding :=
  let ⟨state, fields, divides, _⟩ := expanding
  let separator := ((state.bindings.get? "IFS").map fun text => (text.take 1).toString).getD " "
  { expanding with
    fields :=
      if quoted && joined then fields.extend (separator.intercalate state.arguments) true
      else if !divides then fields.extend (" ".intercalate state.arguments) quoted
      else if quoted then fields.extendAll state.arguments
      else
        match state.arguments with
        | [] => fields
        | first :: rest =>
          rest.foldl (fun fields text => fields.finish.extendDivided state.separators text)
            (fields.extendDivided state.separators first) }

end Expanding

namespace ScriptWord

abbrev Substitution := String → ScriptState → Program (String × ScriptState)

abbrev Attempt := ExceptT String Program

def withoutLineEnds (text : String) : String :=
  String.ofList (text.toList.reverse.dropWhile (· = '\n')).reverse

def withHome (state : ScriptState) (word : ScriptWord) : ScriptWord :=
  match word with
  | .literal text false :: rest =>
    let front := text.toList.takeWhile (· ≠ '/')
    match state.bindings.get? "HOME" with
    | some home =>
      if front = ['~'] && (rest.isEmpty || front.length < text.length) then
        let after := (text.drop 1).toString
        let others := if after.isEmpty then rest else .literal after false :: rest
        .literal home true :: others
      else word
    | none => word
  | _ => word

def missing (name : String) (emptyToo : Bool) : String :=
  name ++ ": parameter " ++ (if emptyToo then "not set or null" else "not set")

def expandParts (substitute : Substitution) : Nat → Expanding → List ScriptPart → Attempt Expanding
  | 0, _, _ => throw "Maximum depth reached"
  | _, expanding, [] => return expanding
  | steps + 1, expanding, part :: rest => do
    let state := expanding.state
    let inner : Expanding → ScriptWord → Attempt Expanding := expandParts substitute steps
    let textOf (word : ScriptWord) : Attempt (List Glyph × ScriptState) := do
      let found ← inner ⟨state, .start, false, false⟩ word
      return (found.fields.toList.flatten, found.state)
    let next ← match part with
      | .literal text quoted => pure (expanding.addLiteral text quoted)
      | .command script ownLines quoted =>
        let (output, after) ←
          substitute script (if ownLines then { state with line := 1 } else state)
        let returned := { after with line := state.line }
        pure ({ expanding with state := returned }.add (withoutLineEnds output) quoted)
      | .arithmetic expression quoted =>
        let (glyphs, after) ← textOf (ScriptToken.quotedWord expression)
        let (value, bindings) ← Formula.evaluateText after.bindings (Glyph.text glyphs)
        match after.fixed.find? fun fixed => bindings.get? fixed ≠ after.bindings.get? fixed with
        | some fixed => throw (fixed ++ ": is read only")
        | none =>
          let changed := { expanding with state := { after with bindings } }
          pure (changed.add (toString value.toInt) quoted)
      | .parameter name use quoted =>
        let value := state.parameter? name
        let isList := name = "@" || name = "*"
        let addValue : Expanding :=
          if isList then expanding.addArguments (name = "*") quoted
          else expanding.add (value.getD "") quoted
        let demanded := value.isNone && state.options.demandValues && !isList
        match use with
        | .malformed => throw "Bad substitution"
        | .value => if demanded then throw (missing name false) else pure addValue
        | .length =>
          if demanded then throw (missing name false)
          else
            let size :=
              if isList then state.arguments.length else (value.getD "").utf8ByteSize
            pure (expanding.add (toString size) quoted)
        | .trimmed atEnd longest text =>
          let (glyphs, after) ← textOf (ScriptToken.looseWord text)
          let trim := if atEnd then WildPattern.trimEnd else WildPattern.trimStart
          let left := trim (WildPattern.ofGlyphs glyphs) longest (value.getD "").toList
          pure ({ expanding with state := after }.add (String.ofList left) quoted)
        | .otherwise fallback emptyToo text =>
          let absent := value.isNone || (emptyToo && value = some "")
          let word := if quoted then ScriptToken.quotedWord text
            else withHome state (ScriptToken.looseWord text)
          match fallback, absent with
          | .substitute, false | .assign, false | .demand, false => pure addValue
          | .alternative, true => pure (expanding.add "" quoted)
          | .substitute, true | .alternative, false =>
            let found ← inner { expanding with dividesLiterals := true } word
            let outer := { found with dividesLiterals := expanding.dividesLiterals }
            pure (if quoted then outer.add "" true else outer)
          | .assign, true =>
            let (glyphs, after) ← textOf word
            if after.fixed.contains name then throw (name ++ ": is read only")
            else
              let changed := after.assign name (Glyph.text glyphs)
              pure ({ expanding with state := changed }.add (Glyph.text glyphs) quoted)
          | .demand, true =>
            let (glyphs, _) ← textOf word
            throw (if glyphs.isEmpty then missing name emptyToo
              else name ++ ": " ++ Glyph.text glyphs)
    inner next rest

def manySteps : Nat := Nat.pow 2 40

def pathParts : List Glyph → List (List Glyph)
  | [] => [[]]
  | glyph :: rest =>
    if glyph.character = '/' then [] :: pathParts rest
    else
      match pathParts rest with
      | part :: others => (glyph :: part) :: others
      | [] => [[glyph]]

/-- Whether a name matches a pattern; a point at its front has to be written. -/
def matchesName (glyphs : List Glyph) (name : String) : Bool :=
  (WildPattern.ofGlyphs glyphs).matchesText name.toList
    && (!name.startsWith "." || glyphs.head?.any (·.character = '.'))

def gather {α : Type} (find : α → Program (List String)) : List α → Program (List String)
  | [] => .done []
  | item :: rest => do
    let found ← find item
    let others ← gather find rest
    .done (found ++ others)

def pathsFrom (directory : String) : String → List (List Glyph) → Program (List String)
  | path, [] => .done [path]
  | path, part :: rest =>
    let ending := if rest.isEmpty then "" else "/"
    if WildPattern.isWild part then
      .listNames (Path.join directory (if path.isEmpty then "." else path)) fun
        | .error _ => .done []
        | .ok names =>
          gather (fun name => pathsFrom directory (path ++ name ++ ending) rest)
            (("." :: ".." :: names).filter (matchesName part))
    else
      let next := path ++ Glyph.text part ++ ending
      if rest.isEmpty then
        .inspect (Path.join directory next) fun kind =>
          .done (if kind.isSome then [next] else [])
      else pathsFrom directory next rest

def argumentsOf (state : ScriptState) (glyphs : List Glyph) : Program (List String) :=
  if state.options.keepWildcards || !WildPattern.isWild glyphs then .done [Glyph.text glyphs]
  else do
    let found ← pathsFrom state.directory "" (pathParts glyphs)
    .done (if found.isEmpty then [Glyph.text glyphs] else found.mergeSort fun a b => a ≤ b)

def expandAll (substitute : Substitution) (state : ScriptState) :
    List ScriptWord → Attempt (List String × ScriptState)
  | [] => return ([], state)
  | word :: rest => do
    let expanded ← expandParts substitute manySteps ⟨state, .start, true, false⟩
      (withHome state word)
    let arguments ← gather (argumentsOf expanded.state) expanded.fields.toList
    let (others, after) ← expandAll substitute expanded.state rest
    return (arguments ++ others, after)

def expandGlyphs (substitute : Substitution) (state : ScriptState) (word : ScriptWord) :
    Attempt (List Glyph × ScriptState) := do
  let expanded ← expandParts substitute manySteps ⟨state, .start, false, false⟩
    (withHome state word)
  return (expanded.fields.toList.flatten, expanded.state)

def expandOne (substitute : Substitution) (state : ScriptState) (word : ScriptWord) :
    Attempt (String × ScriptState) := do
  let (glyphs, after) ← expandGlyphs substitute state word
  return (Glyph.text glyphs, after)

end ScriptWord

end HybridShell
