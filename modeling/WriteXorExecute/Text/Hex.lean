/-!
# Hexadecimal text

Numbers and bytes are shown in lower-case hexadecimal: offsets with as few digits as they need
after `0x`, bytes and checksums with a fixed number of digits.
-/
namespace WriteXorExecute.Text.Hex

/-- The shortest numeral of `n` after `0x`; zero is `0x0`. -/
def numeral (n : Nat) : String :=
  "0x" ++ String.ofList (Nat.toDigits 16 n)

/-- The last `width` hexadecimal digits of `n`, with leading zeros. -/
def digits : (width n : Nat) → List Char
  | 0, _ => []
  | width + 1, n => digits width (n / 16) ++ [Nat.digitChar (n % 16)]

/-- Two digits for each byte, in order. -/
def ofBytes (bytes : ByteArray) : String :=
  String.ofList (bytes.toList.flatMap fun b => digits 2 b.toNat)

def ofWord (w : UInt32) : String :=
  String.ofList (digits 8 w.toNat)

end WriteXorExecute.Text.Hex
