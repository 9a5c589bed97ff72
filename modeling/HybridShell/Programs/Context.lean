import HybridShell.Dictionary
import HybridShell.Files.Path
import HybridShell.Machine.Program

/-!
# What a process is told

A process knows its arguments, its directory and its environment, and divides
what it reads into lines.
-/

namespace HybridShell

structure ProcessContext where
  name : String
  arguments : List String
  directory : String
  environment : Dictionary String
  processId : Int

namespace ProcessContext

def path (context : ProcessContext) (name : String) : String :=
  Path.join context.directory name

end ProcessContext

namespace Program

def exit (code : Int) : Program Outcome :=
  .done (.exited code)

variable (context : ProcessContext) (source : Descriptor)

def misused (problem : String) (code : Int) : Program Outcome :=
  Program.bind
    (.say .error (context.name ++ ": " ++ problem ++ "\nTry '" ++ context.name
      ++ " --help' for more information.\n"))
    fun _ => exit code

def sayAndExit (sink : Descriptor) (text : String) (code : Int) : Program Outcome :=
  Program.bind (.say sink text) fun _ => exit code

def manyReads : Nat := Nat.pow 2 40

def eachChunk (source : Descriptor) (act : Bytes → Program Unit) : Nat → Program Unit
  | 0 => .done ()
  | reads + 1 =>
    .read source .everything fun
      | none => .done ()
      | some chunk => Program.bind (act chunk) fun _ => eachChunk source act reads

def readable : Program (Except SystemError Descriptor) :=
  .inspectStream source fun
    | some .directory => .done (.error .isDirectory)
    | _ => .done (.ok source)

def copyChanged (change : Bytes → Bytes) : Program (Option SystemError) := do
  match ← readable source with
  | .error error => .done (some error)
  | .ok source =>
    eachChunk source (fun chunk => .write .output (change chunk) .done) manyReads
    .done none

def collect (source : Descriptor) : Nat → Program Bytes
  | 0 => .done []
  | reads + 1 =>
    .read source .everything fun
      | none => .done []
      | some chunk => Program.bind (collect source reads) fun rest => .done (chunk ++ rest)

def readAll : Program Bytes :=
  collect source manyReads

def openInput (name : String) : Program (Except SystemError Descriptor) :=
  if name = "-" then readable .input
  else
    let path := context.path name
    .inspect path fun
      | some .directory => .done (.error .isDirectory)
      | _ => .openFile path .read .done

def readInput (name : String) : Program (Except SystemError Bytes) := do
  match ← openInput context name with
  | .error error => .done (.error error)
  | .ok source =>
    let bytes ← readAll source
    .done (.ok bytes)

def inputNames (operands : List String) : List String :=
  if operands.isEmpty then ["-"] else operands

end Program

namespace Programs

def byteLines (bytes : Bytes) : List Bytes :=
  let (last, lines) := bytes.foldr
    (fun byte (current, done) =>
      if byte = 10 then ([10], if current.isEmpty then done else current :: done)
      else (byte :: current, done))
    (([] : Bytes), ([] : List Bytes))
  if last.isEmpty then lines else last :: lines

def lineText (line : Bytes) : Bytes :=
  if line.getLast? = some 10 then line.dropLast else line

def charactersOf (bytes : Bytes) : List Char :=
  bytes.map fun byte => Char.ofNat byte.toNat

def bytesOf (characters : List Char) : Bytes :=
  characters.map fun character => UInt8.ofNat character.toNat

def alignRight (width value : Nat) : String :=
  let digits := toString value
  String.ofList (List.replicate (width - digits.length) ' ') ++ digits

def complainAbout (context : ProcessContext) (problem : String) (error : SystemError) :
    Program Unit :=
  .say .error (context.name ++ ": " ++ problem ++ ": " ++ error.plainMessage ++ "\n")

def giveUp (context : ProcessContext) (problem : String) (code : Int) : Program Outcome :=
  .sayAndExit .error (context.name ++ ": " ++ problem ++ "\n") code

end Programs

end HybridShell
