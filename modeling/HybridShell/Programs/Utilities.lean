import HybridShell.Files.Tree
import HybridShell.Programs.Copying
import HybridShell.Programs.Counting
import HybridShell.Programs.Excerpt
import HybridShell.Programs.Format
import HybridShell.Programs.Listing
import HybridShell.Programs.Search
import HybridShell.Programs.Sorting
import HybridShell.Programs.Transliterate
import HybridShell.Programs.Writing

/-!
# The programs of the machine

Every program that comes with the machine but the interpreter of scripts.
-/

namespace HybridShell

namespace Utility

def ofName? (name : String) : Option Utility :=
  all.find? (·.name = name)

/-- What a utility does; running scripts is left to a given program. -/
def program (shell : ProcessContext → Program Outcome) (context : ProcessContext) :
    Utility → Program Outcome
  | sh => shell context
  | echo => Programs.echo context
  | printf => Programs.printf context
  | cat => Programs.cat context
  | sort => Programs.sort context
  | tr => Programs.tr context
  | wc => Programs.wc context
  | head => Programs.head context
  | tail => Programs.tail context
  | true => .exit 0
  | false => .exit 1
  | sleep => Programs.sleep context
  | grep => Programs.grep context
  | ls => Programs.ls context
  | pwd => Programs.pwd context

end Utility

end HybridShell
