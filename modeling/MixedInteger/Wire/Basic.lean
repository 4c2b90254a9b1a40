/-! # Wire data

Bytes, the four encodings a field may have, and the ways in which encoded data
can be malformed.
-/

namespace MixedInteger

/-- Bytes in the order in which they are written. -/
abbrev Bytes := List UInt8

/-- How the value of a field is encoded. -/
inductive WireType where
  | varint
  | fixed64
  | lengthDelimited
  | fixed32
  deriving DecidableEq, Repr

namespace WireType

/-- The number of an encoding in a field key. -/
def bits : WireType → Nat
  | varint => 0
  | fixed64 => 1
  | lengthDelimited => 2
  | fixed32 => 5

/-- The encoding of a number, if there is one. -/
def ofBits? : Nat → Option WireType
  | 0 => some varint
  | 1 => some fixed64
  | 2 => some lengthDelimited
  | 5 => some fixed32
  | _ => none

end WireType

/-- The parts of a stream that can be cut short. -/
inductive Part where
  | varint
  | fixed64
  | fixed32
  | frameLength
  | frameBody
  deriving DecidableEq, Repr

def Part.name : Part → String
  | .varint => "varint"
  | .fixed64 => "fixed64"
  | .fixed32 => "fixed32"
  | .frameLength => "frame length"
  | .frameBody => "frame body"

/-- What is wrong with wire data. -/
inductive WireError where
  /-- The input ends inside a part. -/
  | truncated (part : Part)
  /-- A variable-length integer goes on after ten bytes. -/
  | varintOverflow
  /-- A field has the number zero. -/
  | zeroFieldNumber
  /-- A field has an encoding that does not exist or does not fit. -/
  | invalidWireType (field bits : Nat)
  /-- The bytes of a string are not UTF-8. -/
  | invalidUtf8 (field : Nat)
  /-- A length reaches beyond the end of the input. -/
  | lengthOutOfBounds (field length remaining : Nat)
  /-- An envelope has no payload. -/
  | missingPayload
  /-- The source of the bytes failed. -/
  | io (text : String)
  deriving DecidableEq, Repr

def WireError.message : WireError → String
  | truncated part => s!"input ended in the middle of a {part.name}"
  | varintOverflow => "varint is longer than 10 bytes"
  | zeroFieldNumber => "field number 0 is reserved"
  | invalidWireType field bits => s!"unsupported wire type {bits} for field {field}"
  | invalidUtf8 field => s!"string field {field} is not valid UTF-8"
  | lengthOutOfBounds field length remaining =>
      s!"length {length} of field {field} exceeds the remaining {remaining} bytes"
  | missingPayload => "message carries no payload"
  | io text => text

end MixedInteger
