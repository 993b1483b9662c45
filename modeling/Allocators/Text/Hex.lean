/-!
# Hexadecimal text

Numbers with the mark `0x`, lower-case and without padding, as addresses
and sizes are shown; and bytes as two digits each.
-/

namespace Allocators

namespace Hex

/-- The digits of a number, most significant first, without leading zeros. -/
def digits (n : Nat) : String := String.ofList (Nat.toDigits 16 n)

/-- A number with its mark: `0x1f`. -/
def number (n : Nat) : String := "0x" ++ digits n

/-- A byte as two digits. -/
def byte (b : UInt8) : List Char :=
  [Nat.digitChar (b.toNat / 16), Nat.digitChar (b.toNat % 16)]

/-- Bytes in order, two digits each. -/
def bytes (bs : List UInt8) : String := String.ofList (bs.flatMap byte)

end Hex

end Allocators
