import HybridShell.Alias.Basic
import HybridShell.Files.Tree

/-!
# Finding commands

Aliases are applied first, then the directories of the search path are tried
in order.  What a search found is remembered until the search path changes.
-/

namespace HybridShell

inductive ResolvedCommand where
  | external (path : String)
  | callable (callable : CallableAlias)
  | nested (code : NestedAlias)

structure Resolution where
  arguments : List String
  command : ResolvedCommand
  aliasName : Option String

inductive SearchResult where
  | found (path : String)
  | notExecutable
  | missing
  deriving Repr, DecidableEq

structure SearchCache where
  searchPath : Option String
  directories : List String
  results : Dictionary SearchResult

namespace SearchCache

def empty : SearchCache :=
  ⟨none, [], ∅⟩

variable (cache : SearchCache)

def flush : SearchCache :=
  { cache with searchPath := none, results := ∅ }

def size : Nat :=
  cache.results.entries.length

def directoriesOf (searchPath : String) : List String :=
  ((Text.stretches ':' searchPath.toList).map String.ofList).filter (· ≠ "")

/-- Search the directories for a program, remembering a file that cannot be run. -/
def searchIn (tree : FileTree) (name : String) (fallback : SearchResult) :
    List String → SearchResult
  | [] => fallback
  | directory :: rest =>
    let candidate := Path.join directory name
    if tree.isProgram candidate then .found candidate
    else if tree.isFile candidate then searchIn tree name .notExecutable rest
    else searchIn tree name fallback rest

def answer (name : String) : SearchResult → Except ProcessError String
  | .found path => .ok path
  | .notExecutable => .error (.notExecutable name)
  | .missing => .error (.notFound name)

def locatePath (tree : FileTree) (name directory : String) : Except ProcessError String :=
  let candidate := Path.join directory name
  if !tree.exists? candidate then .error (.notFound name)
  else if tree.isProgram candidate then .ok candidate
  else .error (.notExecutable name)

def along (searchPath : String) : SearchCache :=
  if cache.searchPath = some searchPath then cache
  else ⟨some searchPath, directoriesOf searchPath, ∅⟩

def locate (tree : FileTree) (name : String) (searchPath : Option String) (directory : String) :
    Except ProcessError String × SearchCache :=
  if name.toList.contains '/' then (locatePath tree name directory, cache)
  else
    let path := searchPath.getD ""
    let current := cache.along path
    match current.results.get? name with
    | some result => (answer name result, current)
    | none =>
      let result := searchIn tree name .missing current.directories
      (answer name result, { current with results := current.results.insert name result })

end SearchCache

structure AliasExpansion where
  arguments : List String
  target : Option Alias
  first : Option String

namespace AliasExpansion

/--
Apply templates to a command line, until a name is reached that has none, or
one that stands for itself.  There is no answer when the rounds are used up.
-/
def expand (aliases : AliasTable) (visited : List String) (first : Option String) :
    Nat → List String → Option (Except ProcessError AliasExpansion)
  | 0, _ => none
  | _ + 1, [] => some (.error (.malformed .emptyCommand))
  | rounds + 1, head :: rest =>
    if visited.contains head then some (.error (.aliasCycle head))
    else
      match aliases.get? head with
      | none => some (.ok ⟨head :: rest, none, first⟩)
      | some (.template []) => some (.error (.malformed (.emptyAlias head)))
      | some (.template (word :: words)) =>
        let arguments := word :: words ++ rest
        let named := some (first.getD head)
        if word = head then some (.ok ⟨arguments, none, named⟩)
        else expand aliases (head :: visited) named rounds arguments
      | some other => some (.ok ⟨head :: rest, some other, some (first.getD head)⟩)

/--
Apply the templates of a table to a command line.  One round more than there
are aliases is enough.
-/
def ofTable (aliases : AliasTable) (arguments : List String) :
    Except ProcessError AliasExpansion :=
  (expand aliases [] none (aliases.entries.length + 1) arguments).getD
    (.error (.malformed .emptyCommand))

end AliasExpansion

def resolve (cache : SearchCache) (tree : FileTree) (aliases : AliasTable)
    (arguments : List String) (searchPath : Option String) (directory : String) :
    Except ProcessError Resolution × SearchCache :=
  match AliasExpansion.ofTable aliases arguments with
  | .error error => (.error error, cache)
  | .ok ⟨expanded, some (.callable callable), first⟩ =>
    (.ok ⟨expanded, .callable callable, first⟩, cache)
  | .ok ⟨expanded, some (.nested code), first⟩ => (.ok ⟨expanded, .nested code, first⟩, cache)
  | .ok ⟨expanded, _, first⟩ =>
    match cache.locate tree (expanded.headD "") searchPath directory with
    | (.ok path, after) => (.ok ⟨expanded, .external path, first⟩, after)
    | (.error error, after) => (.error error, after)

end HybridShell
