import MixedInteger.Proofs.Telemetry.Layout

/-! # Round trip of telemetry messages

Every payload and every envelope is decoded from its encoding, bit for bit and
with its lists in order. The number of bytes of a message has to be a 64-bit
number, since lengths are written as such.
-/

namespace MixedInteger

open Decoder

namespace Message

/-- The fields of a message are found in its encoding. -/
theorem mergeFields_encode (message : Message) (fits : message.encode.length < 2 ^ 64) :
    mergeFields Envelope.merge {} message.encode =
      .ok ⟨message.name, message.runId, message.timestamp, some message.payload⟩ := by
  rw [(merges_encode {} message).mergeFields_eq_ok fits]
  simp only [Envelope.update, supersede_default]

/-- Decoding undoes encoding. The message may hold anything that fits a sequence
of bytes whose length is a 64-bit number. -/
theorem decode_encode (message : Message) (fits : message.encode.length < 2 ^ 64) :
    decode message.encode = .ok message := by
  rw [decode, message.mergeFields_encode fits]
  rfl

/-- A node with an infinite bound and one that is not a number. -/
def unboundedNode : Message where
  name := "größe"
  runId := "run-1"
  timestamp := 18446744073709551615
  payload := .addNode
    { coordinate := ⟨[0, 300, 4294967295]⟩
      lower := 0xFFF0000000000000
      upper := 0x7FF8000000000001
      bounds := [{ name := "x", lower := 0x8000000000000000 }, {}] }

theorem decode_encode_unboundedNode :
    unboundedNode.encode.length < 2 ^ 64 ∧ decode unboundedNode.encode = .ok unboundedNode := by
  have fits : unboundedNode.encode.length < 2 ^ 64 := by decide +kernel
  exact ⟨fits, decode_encode unboundedNode fits⟩

end Message

end MixedInteger
