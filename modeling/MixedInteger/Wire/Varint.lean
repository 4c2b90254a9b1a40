import MixedInteger.Wire.Basic

/-! # Variable-length integers

A number is written in base 128, least significant digit first, and every byte
but the last has its top bit set. A 64-bit number takes between one and ten
bytes.
-/

namespace MixedInteger.Varint

/-- The base-128 digits of a number, the lowest first, each but the last marked. -/
def encode (value : Nat) : Bytes :=
  if value < 128 then [UInt8.ofNat value]
  else UInt8.ofNat (value % 128 + 128) :: encode (value / 128)

/-- The number of bytes that a number takes, from the number of its binary
digits. -/
def length (value : Nat) : Nat := (Nat.log2 (value ||| 1) + 7) / 7

/-- The largest number of bytes that a reader accepts. -/
def maxLength : Nat := 10

/-- Whether a byte is followed by another byte of the same number. -/
def continues (byte : UInt8) : Bool := 128 ≤ byte.toNat

/-- The base-128 digit that a byte carries. -/
def digit (byte : UInt8) : Nat := byte.toNat % 128

end MixedInteger.Varint
