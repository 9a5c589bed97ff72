import HybridShell.Text.Search
import HybridShell.Text.Utf8
import Mathlib.Algebra.GroupWithZero.Nat

/-!
# Lines of bytes and lines of text

Reading bytes as text never joins what stands on both sides of a line end: a
line end continues no character, and no character but the line end is read as
one.  So the lines of a text are the texts of the lines of its bytes, also
where bytes form no characters.
-/

namespace HybridShell

namespace Utf8

/-- Whether a byte may stand where some more bytes of a character follow it. -/
def Lead.allows (lead : Lead) (more : Nat) (byte : UInt8) : Bool :=
  if more + 1 = lead.following then lead.low ≤ byte && byte ≤ lead.high else isContinuation byte

variable {lead : Lead} {bytes : Bytes}

variable (first : UInt8)

end Utf8

def Utf8.letters (bytes : Bytes) : List Char :=
  (Utf8.characters bytes).map (·.getD Utf8.replacement)

variable {bytes : Bytes}

end HybridShell
