import HybridShell.Files.Matching
import HybridShell.Settings

/-!
# From words to arguments

A word is pieces of text, of spliced items and of tildes.  Its arguments are
the combinations of one alternative per piece, in order; a combination with a
live wildcard stands for the paths that match it.
-/

namespace HybridShell

/-- A piece of a word whose host code has been evaluated. -/
inductive WordPiece where
  /-- Text; wildcards in it are live unless it was quoted or substituted. -/
  | text (text : String) (live : Bool)
  | items (items : List String)
  | tilde
  deriving Repr, DecidableEq

abbrev ExpandedWord := List WordPiece

inductive ExpandedRedirect where
  | file (stream : Stream) (mode : FileMode) (target : ExpandedWord)
  | errToOut
  | outToErr
  deriving Repr, DecidableEq

structure ExpandedCommand where
  words : List ExpandedWord
  redirects : List ExpandedRedirect
  deriving Repr, DecidableEq

/-- One choice of alternatives, as text and as a pattern. -/
structure Combination where
  text : String
  pattern : String
  wild : Bool
  deriving Repr, DecidableEq

namespace Combination

def plain (text : String) : Combination :=
  ⟨text, String.ofList (Pattern.escape text.toList), false⟩

def append (left right : Combination) : Combination :=
  ⟨left.text ++ right.text, left.pattern ++ right.pattern, left.wild || right.wild⟩

end Combination

def hasWildcard (text : String) : Bool :=
  text.toList.any fun character => ['*', '?', '['].contains character

namespace WordPiece

def alternatives (home : String) : WordPiece → List Combination
  | text characters true => [⟨characters, characters, hasWildcard characters⟩]
  | text characters false => [.plain characters]
  | items choices => choices.map .plain
  | tilde => [.plain home]

end WordPiece

structure ExpansionContext where
  tree : FileTree
  directory : String
  environment : Dictionary String
  noMatch : NoMatchPolicy

namespace ExpansionContext

variable (context : ExpansionContext)

def home : String :=
  (context.environment.get? "HOME").getD "~"

def combinations (context : ExpansionContext) : ExpandedWord → List Combination
  | [] => [⟨"", "", false⟩]
  | piece :: rest =>
    (piece.alternatives context.home).flatMap fun first =>
      (context.combinations rest).map first.append

def matches? (pattern : String) : Except PatternError (List String) :=
  let relative := !Path.isAbsolute pattern
  let full :=
    if relative then
      String.ofList (Pattern.escape context.directory.toList) ++ "/" ++ pattern
    else pattern
  (PathPattern.read full).map fun parsed =>
    let found := (parsed.paths context.tree).map fun path =>
      if relative then (Path.stripDirectory? path context.directory).getD path else path
    found.mergeSort fun left right => left ≤ right

def combinationArguments (combination : Combination) : Except ProcessError (List String) :=
  if combination.wild then
    match context.matches? combination.pattern with
    | .error error =>
      .error (.malformed (.invalidPattern combination.text error.position error.reason))
    | .ok [] =>
      match context.noMatch with
      | .literal => .ok [combination.text]
      | .drop => .ok []
    | .ok found => .ok found
  else .ok [combination.text]

def arguments (word : ExpandedWord) : Except ProcessError (List String) :=
  match word with
  | [.items items] => .ok items
  | _ => ((context.combinations word).mapM context.combinationArguments).map List.flatten

def targetPiece : WordPiece → Except ProcessError String
  | .text text _ => .ok text
  | .tilde => .ok context.home
  | .items [item] => .ok item
  | .items _ => .error (.malformed .ambiguousRedirect)

def targetName (target : ExpandedWord) : Except ProcessError String := do
  let name := String.join (← target.mapM context.targetPiece)
  if name.isEmpty then throw (.malformed .emptyRedirectTarget) else pure name

end ExpansionContext

end HybridShell
