import HybridShell.Files.Standard
import HybridShell.Invocation.Purpose

/-!
# The command line

The shell runs on a machine that starts afresh each time.  Of the world outside
it sees its arguments, its environment, what is typed, and some files.
-/

namespace HybridShell

namespace Outside

def misuseStatus : UInt32 := 2

def inheritedNames : List String :=
  ["HOME", "PATH", "PWD", "TERM", "USER"] ++ Settings.names

def inheritedEnvironment : IO (Dictionary String) := do
  let bindings ← inheritedNames.filterMapM fun name => do
    return (← IO.getEnv name).map fun value => (name, value)
  return .ofList bindings

def bring (tree : FileTree) (path : String) : IO FileTree := do
  try
    let bytes ← IO.FS.readBinFile path
    let place := Path.render (Path.names (Path.join tree.start path))
    return tree.install place (.file (.ofBytes bytes.toList) false)
  catch _ => return tree

partial def readStream (stream : IO.FS.Stream) (before : ByteArray) : IO ByteArray := do
  let piece ← stream.read 8192
  if piece.isEmpty then return before else readStream stream (before ++ piece)

def neededFiles (purpose : Purpose) (home : Option String) : List String :=
  match purpose with
  | .script path _ => [path]
  | .dialogue true => (home.map (Path.join · ".duoshrc")).toList
  | _ => []

def writeStream (stream : IO.FS.Stream) (content : Rope) : IO Unit := do
  stream.write (ByteArray.mk content.toBytes.toArray)
  stream.flush

def serve (purpose : Purpose) : IO UInt32 := do
  let directory := toString (← IO.currentDir)
  let environment ← inheritedEnvironment
  let bare := (FileTree.standard directory).install directory .directory
  let tree ← (neededFiles purpose (environment.get? "HOME")).foldlM bring bare
  let typed ← readStream (← IO.getStdin) .empty
  match purpose.run .generous (.start tree typed.toList) directory environment with
  | none => return 1
  | some (code, machine) =>
    writeStream (← IO.getStdout) machine.shown
    writeStream (← IO.getStderr) machine.complained
    return UInt32.ofNat code.toNat

end Outside

end HybridShell

def main (words : List String) : IO UInt32 := do
  match HybridShell.Arguments.read words with
  | .ok arguments => HybridShell.Outside.serve (.ofArguments arguments)
  | .error error =>
    IO.eprintln ("duosh: " ++ error.message)
    IO.eprintln "Try 'duosh --help' for more information."
    return HybridShell.Outside.misuseStatus
