import MixedInteger.Contract
import MixedInteger.Wire.Varint

/-! # Encoding fields

Each function gives the bytes that a field contributes to a message. Scalars and
strings that hold their default contribute nothing, except for doubles, which
are always written so that every bit pattern survives. A nested message is
written even when it is empty. The numbers of fields are positive: `checked`
refuses to write a field under the number zero.
-/

namespace MixedInteger.Encoder

/-- The key of a field. -/
def key (field : Nat) (wireType : WireType) : Bytes :=
  Varint.encode (field * 8 + wireType.bits)

/-- A length followed by that many bytes. -/
def delimited (field : Nat) (body : Bytes) : Bytes :=
  key field .lengthDelimited ++ Varint.encode body.length ++ body

/-- The 64-bit word that stands for a signed number: negative numbers are
extended by their sign. -/
def signedWord (value : Int32) : UInt64 := value.toInt64.toUInt64

/-- A number of 64 bits, written unless it is zero. -/
def uint64 (field : Nat) (value : UInt64) : Bytes :=
  if value = 0 then [] else key field .varint ++ Varint.encode value.toNat

/-- A number of 32 bits, written unless it is zero. -/
def uint32 (field : Nat) (value : UInt32) : Bytes := uint64 field value.toUInt64

/-- A number of 32 bits with a sign, written unless it is zero. -/
def int32 (field : Nat) (value : Int32) : Bytes :=
  if value = 0 then [] else key field .varint ++ Varint.encode (signedWord value).toNat

/-- The eight bytes of a word, least significant first. -/
def littleEndian (word : UInt64) : Bytes :=
  (List.range 8).map fun position => UInt8.ofNat (word.toNat >>> (8 * position))

/-- A binary64 number, given by its bits. -/
def double (field : Nat) (bits : UInt64) : Bytes := key field .fixed64 ++ littleEndian bits

/-- The bytes of a text. -/
def utf8 (text : String) : Bytes := text.toUTF8.data.toList

/-- A text, written unless it is empty. -/
def string (field : Nat) (text : String) : Bytes :=
  if text.isEmpty then [] else delimited field (utf8 text)

/-- The length of a packed list, computed from the numbers and not from their
encoding. -/
def packedLength (words : List UInt64) : Nat :=
  words.foldr (fun word total => Varint.length word.toNat + total) 0

/-- The numbers of a packed list one after the other. -/
def packedBody (words : List UInt64) : Bytes :=
  words.flatMap fun word => Varint.encode word.toNat

/-- A packed list of numbers, given as 64-bit words. -/
def packed (field : Nat) (words : List UInt64) : Bytes :=
  if words.isEmpty then []
  else key field .lengthDelimited ++ Varint.encode (packedLength words) ++ packedBody words

/-- A packed list of numbers of 32 bits. -/
def packedUInt32 (field : Nat) (values : List UInt32) : Bytes :=
  packed field (values.map UInt32.toUInt64)

/-- A packed list of numbers of 32 bits with signs. -/
def packedInt32 (field : Nat) (values : List Int32) : Bytes :=
  packed field (values.map signedWord)

/-- The bytes of a field under any number. The number zero is reserved, so a
field may have it only when it contributes nothing. -/
def checked (field : Nat) (encode : Nat → Bytes) : Except Violation Bytes :=
  if field = 0 ∧ encode field ≠ [] then .error .reservedFieldNumber else .ok (encode field)

end MixedInteger.Encoder
