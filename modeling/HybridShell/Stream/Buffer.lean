import HybridShell.Text.Utf8

/-!
# Ropes and stream buffers

Both keep bytes in chunks of which the latest is first.  A buffer is read by
any number of readers, each from a position of its own; one that does not retain
bytes still counts them.
-/

namespace HybridShell

structure Rope where
  chunks : List Bytes
  size : Nat
  deriving Repr, DecidableEq

namespace Rope

def empty : Rope :=
  ⟨[], 0⟩

instance : Inhabited Rope := ⟨empty⟩

def ofBytes (bytes : Bytes) : Rope :=
  if bytes.isEmpty then empty else ⟨[bytes], bytes.length⟩

variable (rope : Rope)

def toBytes : Bytes :=
  match rope.chunks with
  | [bytes] => bytes
  | chunks => chunks.reverse.flatten

def push (bytes : Bytes) : Rope :=
  if bytes.isEmpty then rope else ⟨bytes :: rope.chunks, rope.size + bytes.length⟩

def dropFront (count : Nat) : Rope :=
  let left := rope.toBytes.drop count
  if left.isEmpty then empty else ⟨[left], rope.size - count⟩

/-- Put bytes at a position, over what is there; a gap before them is filled with zeros. -/
def writeAt (position : Nat) (bytes : Bytes) : Rope :=
  if position = rope.size then rope.push bytes
  else
    let old := rope.toBytes
    let before := old.take position
    ofBytes (before ++ List.replicate (position - before.length) 0 ++ bytes
      ++ old.drop (position + bytes.length))

end Rope

structure StreamBuffer where
  chunks : List Bytes
  total : Nat
  closed : Bool
  retain : Bool
  deriving Repr, DecidableEq

namespace StreamBuffer

def new (retain : Bool) : StreamBuffer :=
  ⟨[], 0, false, retain⟩

variable (buffer : StreamBuffer)

def push (chunk : Bytes) : StreamBuffer :=
  { buffer with
    chunks := if buffer.retain && !chunk.isEmpty then chunk :: buffer.chunks else buffer.chunks
    total := buffer.total + chunk.length }

def close : StreamBuffer :=
  { buffer with closed := true }

def contents : Bytes :=
  buffer.chunks.reverse.flatten

def readFrom (position : Nat) : Bytes × Bool :=
  (buffer.contents.drop position, buffer.closed)

@[simp] theorem contents_new (retain : Bool) : (new retain).contents = [] := rfl

theorem contents_push (chunk : Bytes) (retained : buffer.retain = true) :
    (buffer.push chunk).contents = buffer.contents ++ chunk := by
  unfold push contents
  cases chunk with
  | nil => simp
  | cons byte rest => simp [retained]

@[simp] theorem contents_close : buffer.close.contents = buffer.contents := rfl

end StreamBuffer

end HybridShell
