import WriteXorExecute.Text.Hex
/-!
# Digests of code

Long code is shown by its length, its two ends and a checksum; short code is shown as it is.
-/
namespace WriteXorExecute

/-- What running the bytes computes: the value at 31 of the polynomial with the bytes as its
coefficients, the first one leading, as a word of 32 bits. -/
def Code.value (bytes : ByteArray) : UInt32 :=
  bytes.foldl (fun h b => h * 31 + b.toUInt32) 0

/-- The 32-bit checksum of Fowler, Noll and Vo that takes each byte in before it multiplies. -/
def Code.checksum (bytes : ByteArray) : UInt32 :=
  bytes.foldl (fun h b => (h ^^^ b.toUInt32) * 0x01000193) 0x811c9dc5

inductive Digest where
  /-- All of it, in hexadecimal. -/
  | whole (text : String)
  /-- Its length and ends, and a checksum unless there is too much of it. -/
  | outline (size : Nat) (head tail : String) (checksum : Option String)
  deriving DecidableEq, Repr

/-- Up to 64 bytes are shown whole. Of more, the first and the last 16 are shown; a checksum is made
of up to 65536 bytes. -/
def Digest.of (bytes : ByteArray) : Digest :=
  if bytes.size ≤ 64 then
    .whole (Text.Hex.ofBytes bytes)
  else
    .outline bytes.size (Text.Hex.ofBytes (bytes.extract 0 16))
      (Text.Hex.ofBytes (bytes.extract (bytes.size - 16) bytes.size))
      (if bytes.size ≤ 65536 then some (Text.Hex.ofWord (Code.checksum bytes)) else none)

end WriteXorExecute
