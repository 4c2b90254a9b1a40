import MixedInteger.Telemetry.Payload
import MixedInteger.Wire.Frame

/-! # Envelopes and frames

Every payload travels in an envelope that names its producer, the run and the
time. An envelope is a message of fields in which exactly one payload is needed;
of several the last one counts. On a stream each envelope is a frame: its length
followed by its bytes.
-/

namespace MixedInteger

/-- A telemetry message. -/
structure Message where
  name : String
  runId : String
  /-- The time in milliseconds. -/
  timestamp : UInt64
  payload : Payload
  deriving DecidableEq, Repr

/-- An envelope whose fields have not all been read. -/
structure Envelope where
  name : String := ""
  runId : String := ""
  timestamp : UInt64 := 0
  /-- The content, once it has been read. -/
  payload : Option Payload := none
  deriving DecidableEq, Repr

namespace Envelope

/-- How a known field is merged into an envelope. -/
def merge (field : Nat) (wireType : WireType) : Option (Envelope → Decoder Envelope) :=
  match field, wireType with
  | 1, .lengthDelimited =>
      some fun envelope => return { envelope with name := ← Decoder.string 1 }
  | 2, .lengthDelimited =>
      some fun envelope => return { envelope with runId := ← Decoder.string 2 }
  | 3, .varint => some fun envelope => return { envelope with timestamp := ← Decoder.varint }
  | field, .lengthDelimited =>
      (Payload.decoder? field).map fun decoder envelope =>
        return { envelope with payload := some (← decoder) }
  | _, _ => none

/-- The message of an envelope whose fields have all been read. -/
def close (envelope : Envelope) : Except WireError Message :=
  match envelope.payload with
  | some payload => .ok ⟨envelope.name, envelope.runId, envelope.timestamp, payload⟩
  | none => .error .missingPayload

end Envelope

namespace Message

/-- The bytes of a message. Its payload is written last. -/
def encode (message : Message) : Bytes :=
  Encoder.string 1 message.name ++ Encoder.string 2 message.runId
    ++ Encoder.uint64 3 message.timestamp
    ++ Encoder.delimited message.payload.field message.payload.body

/-- The message of a sequence of bytes. -/
def decode (input : Bytes) : Except WireError Message := do
  let envelope ← Decoder.mergeFields Envelope.merge {} input
  envelope.close

/-- The frame of a message. -/
def frame (message : Message) : Bytes := frameOf message.encode

end Message

end MixedInteger
