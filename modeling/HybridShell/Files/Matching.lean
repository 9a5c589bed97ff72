import HybridShell.Files.Pattern
import HybridShell.Files.Tree

/-!
# Paths that match a pattern

A pattern for paths is one pattern for each part.  Parts without wildcards are
followed as they are; the others are compared with the names in the directory
that was reached.
-/

namespace HybridShell

structure PathPattern where
  absolute : Bool
  parts : List Pattern
  directoriesOnly : Bool
  deriving Repr, DecidableEq

namespace PathPattern

/-- The parts of a text between slashes; a last slash starts no further part. -/
def textParts (text : String) : List String :=
  let parts := Path.parts text
  if parts.getLast? = some "" then parts.dropLast else parts

def read (text : String) : Except PatternError PathPattern := do
  let _ ← Pattern.read text.toList
  let body := String.ofList (text.toList.dropWhile (· = '/'))
  let parts ← (textParts body).mapM fun part => Pattern.read part.toList
  pure ⟨Path.isAbsolute text, if parts.isEmpty then [[]] else parts, text.endsWith "/"⟩

def step (path name : String) : String :=
  if Path.isHere path then name else Path.join path name

def dropDeep : List Pattern → List Pattern
  | pattern :: rest => if Pattern.isDeep pattern then dropDeep rest else pattern :: rest
  | [] => []

mutual

def below (tree : FileTree) (directoriesOnly : Bool) :
    Nat → String → List Pattern → List String
  | 0, _, _ => []
  | _, _, [] => []
  | fuel + 1, path, pattern :: rest =>
    match Pattern.literal? pattern with
    | some characters =>
      let name := String.ofList characters
      let next := step path name
      let special := name = "." ∨ name = ".."
      if (if special then tree.isDirectory path else tree.exists? next) then
        reached tree directoriesOnly fuel next rest
      else []
    | none =>
      match tree.listNames path with
      | .error _ => []
      | .ok names =>
        let specials :=
          if pattern.head? = some (.character '.') then
            [".", ".."].filter fun name => Pattern.matchesName pattern name.toList
          else []
        names.flatMap (fun name =>
            candidate tree directoriesOnly fuel (step path name) (pattern :: rest))
          ++ specials.flatMap fun name =>
            reached tree directoriesOnly fuel (Path.join path name) rest

def reached (tree : FileTree) (directoriesOnly : Bool) :
    Nat → String → List Pattern → List String
  | 0, _, _ => []
  | _, path, [] => if directoriesOnly && !tree.isDirectory path then [] else [path]
  | fuel + 1, path, rest => below tree directoriesOnly fuel path rest

def candidate (tree : FileTree) (directoriesOnly : Bool) :
    Nat → String → List Pattern → List String
  | 0, _, _ => []
  | _, _, [] => []
  | fuel + 1, path, pattern :: rest =>
    if Pattern.isDeep pattern then
      let after := dropDeep rest
      let deeper :=
        if tree.isDirectory path then below tree directoriesOnly fuel path (pattern :: after)
        else []
      match after with
      | [] => if tree.isDirectory path then path :: deeper else []
      | _ => deeper ++ candidate tree directoriesOnly fuel path after
    else
      match Path.fileName? path with
      | none => []
      | some name =>
        if Pattern.matchesName pattern name.toList then
          reached tree directoriesOnly fuel path rest
        else []

end

def paths (pattern : PathPattern) (tree : FileTree) : List String :=
  below tree pattern.directoriesOnly
    (4 * (tree.entries.entries.length + 2) * (pattern.parts.length + 2))
    (if pattern.absolute then "/" else ".") pattern.parts

end PathPattern

end HybridShell
