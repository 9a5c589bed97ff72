import HybridShell.Dictionary
import HybridShell.Files.Path
import HybridShell.Machine.Program
import HybridShell.Stream.Buffer

/-!
# The file tree

Entries have normalised absolute paths.  Every part of a path but the last must
lead to a directory.
-/

namespace HybridShell

inductive Entry where
  | directory
  | file (content : Rope) (executable : Bool)
  | installed (utility : Utility)
  | null
  deriving Repr, DecidableEq

namespace Entry

def isDirectory : Entry → Bool
  | directory => true
  | _ => false

def isFile : Entry → Bool
  | file _ _ => true
  | installed _ => true
  | _ => false

def isProgram : Entry → Bool
  | file _ executable => executable
  | installed _ => true
  | _ => false

def kind : Entry → EntryKind
  | directory => .directory
  | file _ executable => .file executable
  | installed _ => .file true
  | null => .file false

def bytes : Entry → Bytes
  | file content _ => content.toBytes
  | _ => []

def size : Entry → Nat
  | file content _ => content.size
  | _ => 0

end Entry

/-- Entries by normalised absolute path, and the directory that relative paths start in. -/
structure FileTree where
  entries : Dictionary Entry
  start : String

namespace FileTree

variable (tree : FileTree)

def at? (parts : List String) : Option Entry :=
  tree.entries.get? (Path.render parts)

def longestName : Nat := 255

def longestPath : Nat := 4095

/-- Follow parts from a directory, whose own normalised parts are in reverse order. -/
def follow (tree : FileTree) (reached : List String) :
    List String → Except SystemError (List String)
  | [] => .ok reached.reverse
  | part :: rest =>
    match tree.at? reached.reverse with
    | none => .error .notFound
    | some entry =>
      if !entry.isDirectory then .error .notDirectory
      else if part = "" ∨ part = "." then tree.follow reached rest
      else if part = ".." then tree.follow reached.tail rest
      else if longestName < part.utf8ByteSize then .error .nameTooLong
      else tree.follow (part :: reached) rest

def textFault? (path : String) : Option SystemError :=
  if path.isEmpty then some .notFound
  else if path.toList.contains '\x00' then some .zeroInPath
  else if longestPath < path.utf8ByteSize then some .nameTooLong
  else none

def followPath (path : String) : Except SystemError (List String) :=
  tree.follow [] (Path.parts (Path.join tree.start path))

/-- The normalised parts that a path leads to, whether or not anything stands there. -/
def place (path : String) : Except SystemError (List String) :=
  match textFault? path with
  | some fault => .error fault
  | none => tree.followPath path

def find (path : String) : Except SystemError Entry :=
  match tree.place path with
  | .error error => .error error
  | .ok parts =>
    match tree.at? parts with
    | some entry => .ok entry
    | none => .error .notFound

def find? (path : String) : Option Entry :=
  (tree.find path).toOption

def exists? (path : String) : Bool :=
  (tree.find? path).isSome

def isDirectory (path : String) : Bool :=
  (tree.find? path).any Entry.isDirectory

def isFile (path : String) : Bool :=
  (tree.find? path).any Entry.isFile

def isProgram (path : String) : Bool :=
  (tree.find? path).any Entry.isProgram

def canonical (path : String) : Except SystemError String :=
  match tree.place path with
  | .error error => .error error
  | .ok parts => if (tree.at? parts).isSome then .ok (Path.render parts) else .error .notFound

def put (parts : List String) (entry : Entry) : FileTree :=
  { tree with entries := tree.entries.insert (Path.render parts) entry }

def makeDirectory (parts : List String) : FileTree :=
  if (tree.at? parts).isSome then tree else tree.put parts .directory

def makeParents (tree : FileTree) (reached : List String) : List String → FileTree
  | [] => tree
  | part :: rest => (tree.makeDirectory reached).makeParents (reached ++ [part]) rest

def install (path : String) (entry : Entry) : FileTree :=
  let parts := Path.names path
  (tree.makeParents [] parts).put parts entry

def remove (path : String) : FileTree :=
  let key := Path.render (Path.names path)
  { tree with
    entries := ⟨tree.entries.entries.filter fun (other, _) =>
      other ≠ key ∧ ¬ other.startsWith (key ++ "/")⟩ }

/-- The last part of a path directly below a directory given by its path and a slash. -/
def childName? (directory path : String) : Option String :=
  if directory.toList.isPrefixOf path.toList then
    let name := path.toList.drop directory.toList.length
    if name = [] ∨ '/' ∈ name then none else some (String.ofList name)
  else none

def namesAt (parts : List String) : List String :=
  let directory := if parts.isEmpty then "/" else Path.render parts ++ "/"
  tree.entries.keys.filterMap (childName? directory)

def listNames (path : String) : Except SystemError (List String) :=
  match tree.place path with
  | .error error => .error error
  | .ok parts =>
    match tree.at? parts with
    | some .directory => .ok (tree.namesAt parts)
    | some _ => .error .notDirectory
    | none => .error .notFound

def readFile (path : String) : Except SystemError Bytes :=
  match tree.find path with
  | .error error => .error error
  | .ok .directory => .error .isDirectory
  | .ok entry => .ok entry.bytes

def readText (path : String) : Except SystemError String :=
  match tree.readFile path with
  | .error error => .error error
  | .ok bytes =>
    match Utf8.decode? bytes with
    | some text => .ok text
    | none => .error .notText

/-- The normalised parts of a file to write; a path with a slash at its end can name none. -/
def placeToWrite (path : String) : Except SystemError (List String) :=
  match textFault? path, path.endsWith "/" with
  | some fault, _ => .error fault
  | none, false => tree.followPath path
  | none, true =>
    match tree.followPath (Path.enclosing path) with
    | .error error => .error error
    | .ok _ => .error .isDirectory

/--
Open the file that a path leads to.  Writing makes the file when it is not
there and empties it unless it appends.
-/
def openFile (path : String) (mode : FileMode) : Except SystemError (List String × FileTree) :=
  match if mode = .read then tree.place path else tree.placeToWrite path with
  | .error error => .error error
  | .ok parts =>
    match tree.at? parts, mode with
    | none, .read => .error .notFound
    | none, _ =>
      match tree.at? parts.dropLast with
      | some .directory => .ok (parts, tree.put parts (.file .empty false))
      | some _ => .error .notDirectory
      | none => .error .notFound
    | some .directory, .read => .ok (parts, tree)
    | some .directory, _ => .error .isDirectory
    | some (.file _ executable), .write => .ok (parts, tree.put parts (.file .empty executable))
    | some _, _ => .ok (parts, tree)

def writeAt (parts : List String) (position : Option Nat) (bytes : Bytes) : FileTree :=
  match tree.at? parts with
  | some (.file content executable) =>
    tree.put parts (.file (content.writeAt (position.getD content.size) bytes) executable)
  | _ => tree

end FileTree

end HybridShell
