import HybridShell.Files.Tree

/-!
# Starting files

The first line of a script may name its interpreter, which may be a script
again; a script that names none is read by the usual interpreter.
-/

namespace HybridShell

structure InterpreterLine where
  path : String
  argument : Option String
  deriving Repr, DecidableEq

namespace InterpreterLine

def window : Nat := 256

def isBlank (byte : UInt8) : Bool :=
  byte = 32 || byte = 9

def trimEnd (bytes : Bytes) : Bytes :=
  (bytes.reverse.dropWhile isBlank).reverse

/-- The interpreter named by a line without its mark; `ended` tells that the line has an end. -/
def ofLine? (line : Bytes) (ended : Bool) : Option InterpreterLine :=
  let text := (if ended then trimEnd line else line).dropWhile isBlank
  let path := text.takeWhile fun byte => !isBlank byte && byte ≠ 0
  let rest := text.drop path.length
  let argument := (rest.dropWhile isBlank).takeWhile (· ≠ 0)
  if path.isEmpty then none
  else
    some ⟨Utf8.decode path,
      if rest.head?.any isBlank then some (Utf8.decode argument) else none⟩

/-- The interpreter that the bytes of a file name; a name that may be cut off is none. -/
def ofBytes? (bytes : Bytes) : Option InterpreterLine :=
  match bytes with
  | 35 :: 33 :: rest =>
    let seen := rest.take (window - 2)
    let line := seen.takeWhile (· ≠ 10)
    if line.length < seen.length then ofLine? line true
    else
      let cut := line.take (window - 3)
      let terminated := cut.length < window - 3
        || (cut.dropWhile isBlank).any fun byte => isBlank byte || byte = 0
      if terminated then ofLine? cut false else none
  | _ => none

end InterpreterLine

namespace FileTree

def interpreterDepth : Nat := 5

def usualInterpreter (path : String) : Executable :=
  ⟨.sh, ["/bin/sh", path]⟩

/--
What runs when a file is started in a directory, with the words that scripts
on the way have put in front; nothing for a file that does not say.
-/
def executableFrom (tree : FileTree) (directory : String) :
    Nat → String → List String → Except SystemError (Option Executable)
  | depth, path, front =>
    match tree.find (Path.join directory path), depth with
    | .error error, _ => .error error
    | .ok (.installed _), 0 | .ok (.file _ true), 0 => .error .tooManyLinks
    | .ok (.installed utility), _ => .ok (some ⟨utility, front⟩)
    | .ok (.file content true), shallower + 1 =>
      match InterpreterLine.ofBytes? content.toBytes with
      | none => .ok none
      | some line =>
        tree.executableFrom directory shallower line.path
          (line.path :: line.argument.toList ++ path :: front.tail)
    | .ok _, _ => .error .accessDenied

def executable (tree : FileTree) (directory path : String) : Except SystemError Executable :=
  (tree.executableFrom directory (interpreterDepth + 1) path []).map fun found =>
    found.getD (usualInterpreter path)

end FileTree

end HybridShell
