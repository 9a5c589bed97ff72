import HybridShell.Files.Tree

/-!
# The tree of a fresh machine

The root with its usual directories and the programs that come with the
machine.
-/

namespace HybridShell

namespace FileTree

def programDirectories : List String :=
  ["/usr/bin", "/bin"]

def installedPrograms : List (String × Entry) :=
  programDirectories.flatMap fun directory =>
    Utility.all.map fun utility => (Path.join directory utility.name, .installed utility)

def standard (start : String) : FileTree :=
  let empty : FileTree := ⟨∅, start⟩
  let base := [("/", Entry.directory), ("/tmp", .directory), ("/dev/null", .null)]
  (base ++ installedPrograms).foldl (fun tree (path, entry) => tree.install path entry) empty

end FileTree

end HybridShell
