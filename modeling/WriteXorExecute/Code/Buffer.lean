import WriteXorExecute.Error
import WriteXorExecute.Text.Display
import WriteXorExecute.Word
/-!
# Code buffers

A buffer holds emitted code up to a limit, until it is freed. Every operation is admitted before it
has any effect, so that a refusal leaves no trace: `admitEmit`, `admitPatch` and `admitRun` decide,
`append` and `overwrite` act.
-/
namespace WriteXorExecute

structure CodeBuffer where
  bytes : ByteArray := .empty
  /-- How many bytes there may be. -/
  maxSize : UInt64
  freed : Bool := false

namespace CodeBuffer

/-- The limit of a buffer that asks for none: 16 MiB. -/
def defaultMaxSize : UInt64 := 16 * 1024 * 1024

/-- How long a string of bytes can be. -/
def maxLength : Nat := 0x7FFFFFFFFFFFFFFF

/-- A buffer that holds nothing any more. -/
def released : CodeBuffer :=
  { maxSize := 0, freed := true }

/-- How many bytes there are, as a word. -/
def size (b : CodeBuffer) : UInt64 :=
  UInt64.ofNat b.bytes.size

/-- Every operation requires a buffer that has not been freed. -/
def requireLive (b : CodeBuffer) : Except CodeError Unit :=
  if b.freed then .error .regionFreed else .ok ()

/-- Whether `count` more bytes fit; if so, where they will start. -/
def admitEmit (b : CodeBuffer) (count : Nat) : Except CodeError UInt64 := do
  b.requireLive
  if b.maxSize < b.size + UInt64.ofNat count then
    throw .exceedsMaxSize
  return b.size

/-- Whether the `count` bytes from `offset` on are all emitted code. -/
def admitPatch (b : CodeBuffer) (offset : UInt64) (count : Nat) : Except CodeError Unit := do
  b.requireLive
  match Word.checkedAdd offset (UInt64.ofNat count) with
  | none => throw .outOfBounds
  | some stop => if b.size < stop then throw .outOfBounds

/-- Whether there is code to run. -/
def admitRun (b : CodeBuffer) : Except CodeError Unit := do
  b.requireLive
  if b.bytes.isEmpty then
    throw .empty

def code (b : CodeBuffer) : Except CodeError ByteArray := do
  b.requireLive
  return b.bytes

def append (b : CodeBuffer) (data : ByteArray) : CodeBuffer :=
  { b with bytes := b.bytes ++ data }

/-- Puts bytes in place of those from `offset` on. -/
def overwrite (b : CodeBuffer) (offset : UInt64) (data : ByteArray) : CodeBuffer :=
  { b with
    bytes := b.bytes.extract 0 offset.toNat ++ data
      ++ b.bytes.extract (offset.toNat + data.size) b.bytes.size }

def free (b : CodeBuffer) : CodeBuffer :=
  { b with bytes := .empty, freed := true }

def display (b : CodeBuffer) : String :=
  Text.Display.record "CodeBuffer"
    [("buffer", Text.Display.bytes b.bytes), ("max_size", toString b.maxSize.toNat),
      ("freed", toString b.freed)]

end CodeBuffer

end WriteXorExecute
