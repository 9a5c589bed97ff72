import HybridShell.Text.Search

/-!
# Paths

Paths are texts, joined and compared part by part.
-/

namespace HybridShell

namespace Path

variable (path : String)

def isAbsolute : Bool :=
  path.toList.head? == some '/'

def join (directory name : String) : String :=
  if isAbsolute name then name
  else if directory.isEmpty then name
  else if directory.toList.getLast? == some '/' then directory ++ name
  else directory ++ "/" ++ name

def parts : List String :=
  (Text.stretches '/' path.toList).map String.ofList

def render (parts : List String) : String :=
  "/" ++ "/".intercalate parts

def names : List String :=
  (parts path).filter fun part => part ≠ "" ∧ part ≠ "."

def resolved (names : List String) : List String :=
  let step (reached : List String) (name : String) : List String :=
    if name = ".." then reached.tail else name :: reached
  (names.foldl step []).reverse

def enclosing : String :=
  "/".intercalate (((parts path).reverse.dropWhile (· = "")).tail.reverse ++ ["."])

def startsHere : Bool :=
  (parts path).head? = some "."

def isHere : Bool :=
  startsHere path && (names path).isEmpty

def fileName? : Option String :=
  (names path).getLast?.filter (· ≠ "..")

def dropIdle : List String → List String
  | part :: rest => if part = "" ∨ part = "." then dropIdle rest else part :: rest
  | [] => []

def trimIdle (parts : List String) : List String :=
  (dropIdle (dropIdle parts).reverse).reverse

def stripNames : List String → List String → Option (List String)
  | [], rest => some (trimIdle rest)
  | name :: others, parts =>
    match dropIdle parts with
    | part :: rest => if part = name then stripNames others rest else none
    | [] => none

/-- What is left of a path below a directory that is written at its front in the same way. -/
def stripDirectory? (path directory : String) : Option String :=
  if isAbsolute path = isAbsolute directory ∧ startsHere path = startsHere directory then
    (stripNames (names directory) (parts path)).map ("/".intercalate ·)
  else none

end Path

end HybridShell
