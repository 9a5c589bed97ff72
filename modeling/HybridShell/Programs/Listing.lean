import HybridShell.Programs.Options

/-!
# Listing directories

Names are listed in the order of their bytes, one on a line.
-/

namespace HybridShell

namespace Programs

variable (options : Options)

def shownNames (names : List String) : List String :=
  match options.last? ['a', 'A'] with
  | some 'a' => [".", ".."] ++ names
  | some _ => names
  | none => names.filter (!·.startsWith ".")

def orderedNames (names : List String) : List String :=
  let sorted := names.mergeSort fun left right => left ≤ right
  if options.has 'r' then sorted.reverse else sorted

def kindMark : Option EntryKind → String
  | some .directory => if options.hasAny ['F', 'p'] then "/" else ""
  | some (.file true) => if options.has 'F' then "*" else ""
  | _ => ""

def writeNames (context : ProcessContext) (options : Options) (directory : String) :
    List String → Program Unit
  | [] => .done ()
  | name :: rest =>
    .inspect (Path.join (context.path directory) name) fun kind => do
      .say .output (name ++ kindMark options kind ++ "\n")
      writeNames context options directory rest

/-- Sort operands into files and directories, and complain about those that are missing. -/
def classify (context : ProcessContext) (options : Options) :
    List String → Program (List String × List String × Bool)
  | [] => .done ([], [], false)
  | name :: rest =>
    .inspect (context.path name) fun kind => do
      if kind.isNone then complainAbout context ("cannot access '" ++ name ++ "'") .notFound
      let (files, directories, failed) ← classify context options rest
      match kind with
      | none => .done (files, directories, true)
      | some .directory =>
        if options.has 'd' then .done (name :: files, directories, failed)
        else .done (files, name :: directories, failed)
      | some (.file _) => .done (name :: files, directories, failed)

def directoriesAmong (context : ProcessContext) (directory : String) :
    List String → Program (List String)
  | [] => .done []
  | name :: rest => do
    let path := Path.join directory name
    let others ← directoriesAmong context directory rest
    .inspect (context.path path) fun
      | some .directory => .done (path :: others)
      | _ => .done others

/-- List directories, under headings when there is more to list, for a number of them at most. -/
def listDirectories (context : ProcessContext) (options : Options) (headings : Bool) :
    Nat → Bool → List String → Program Unit
  | 0, _, _ | _, _, [] => .done ()
  | count + 1, first, name :: rest =>
    .listNames (context.path name) fun answer => do
      let names := orderedNames options (shownNames options ((answer.toOption).getD []))
      .say .output
        ((if first then "" else "\n") ++ (if headings then name ++ ":\n" else ""))
      writeNames context options name names
      let inner ←
        if options.has 'R' then
          directoriesAmong context name (names.filter fun inside => inside ≠ "." ∧ inside ≠ "..")
        else .done []
      listDirectories context options headings count false (inner ++ rest)

def lsOptions : OptionRules where
  plain := ['a', 'A', '1', 'd', 'r', 'F', 'p', 'R']
  words :=
    [("all", 'a'), ("almost-all", 'A'), ("directory", 'd'), ("reverse", 'r'), ("classify", 'F'),
      ("recursive", 'R')]

def ls (context : ProcessContext) : Program Outcome :=
  Options.within lsOptions context 2 fun options => do
    let operands := if options.operands.isEmpty then ["."] else options.operands
    let (files, directories, failed) ← classify context options operands
    writeNames context options "." (orderedNames options files)
    listDirectories context options (operands.length > 1 || options.has 'R') Program.manyReads
      files.isEmpty (orderedNames options directories)
    .exit (if failed then 2 else 0)

end Programs

end HybridShell
