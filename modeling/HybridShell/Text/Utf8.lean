/-!
# Bytes and text

Reading never fails: where bytes do not form a character, the longest stretch
that could have begun one is read as a single replacement character.
-/

namespace HybridShell

abbrev Bytes := List UInt8

namespace Utf8

def encode (text : String) : Bytes :=
  text.toUTF8.toList

def replacement : Char :=
  Char.ofNat 0xfffd

def isContinuation (byte : UInt8) : Bool :=
  0x80 ≤ byte && byte ≤ 0xbf

/--
What a first byte announces: the number of bytes that follow, the range of the
next byte, and the bits that the first byte itself gives.
-/
structure Lead where
  following : Nat
  low : UInt8
  high : UInt8
  bits : Nat

def lead? (byte : UInt8) : Option Lead :=
  if byte < 0x80 then some ⟨0, 0, 0, byte.toNat⟩
  else if byte < 0xc2 then none
  else if byte < 0xe0 then some ⟨1, 0x80, 0xbf, byte.toNat - 0xc0⟩
  else if byte = 0xe0 then some ⟨2, 0xa0, 0xbf, 0⟩
  else if byte = 0xed then some ⟨2, 0x80, 0x9f, 0xd⟩
  else if byte < 0xf0 then some ⟨2, 0x80, 0xbf, byte.toNat - 0xe0⟩
  else if byte = 0xf0 then some ⟨3, 0x90, 0xbf, 0⟩
  else if byte < 0xf4 then some ⟨3, 0x80, 0xbf, byte.toNat - 0xf0⟩
  else if byte = 0xf4 then some ⟨3, 0x80, 0x8f, 4⟩
  else none

/-- The bytes that continue a character: their combined bits and how many there are. -/
def continuation (lead : Lead) : Nat → Nat → Bytes → Nat × Nat
  | 0, bits, _ => (bits, 0)
  | _ + 1, bits, [] => (bits, 0)
  | count + 1, bits, byte :: rest =>
    let allowed :=
      if count + 1 = lead.following then lead.low ≤ byte && byte ≤ lead.high
      else isContinuation byte
    if allowed then
      let (all, taken) := continuation lead count (bits * 64 + (byte.toNat - 0x80)) rest
      (all, taken + 1)
    else (bits, 0)

/--
The character at the front, none where the bytes form none, and the bytes
after the first it takes.
-/
def step (first : UInt8) (rest : Bytes) : Option Char × Nat :=
  match lead? first with
  | none => (none, 0)
  | some lead =>
    let (code, taken) := continuation lead lead.following lead.bits rest
    if taken = lead.following then (some (Char.ofNat code), taken) else (none, taken)

def characters : Bytes → List (Option Char)
  | [] => []
  | first :: rest =>
    let (character, taken) := step first rest
    character :: characters (rest.drop taken)
termination_by bytes => bytes.length
decreasing_by simp only [List.length_drop, List.length_cons]; omega

def decode (bytes : Bytes) : String :=
  String.ofList ((characters bytes).map (·.getD replacement))

def decode? (bytes : Bytes) : Option String :=
  ((characters bytes).mapM id).map String.ofList

end Utf8

end HybridShell
