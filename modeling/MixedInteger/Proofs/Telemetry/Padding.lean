import MixedInteger.Proofs.Telemetry.Layout

/-! # Telemetry messages among records of no use

A message is found whatever records that it does not use stand before, between
and after its fields: those of its envelope, those of its payload and, in a node,
those of each variable (`Message.decode_of_isPadded`).
-/

namespace MixedInteger

open Decoder WireMessage

namespace NodeDescriptor

/-- Whether bytes hold a node among records that it does not use, and each of its
variables is held in the same way. -/
def IsPadded (message : NodeDescriptor) (bytes : Bytes) : Prop :=
  ∃ bodies, List.Forall₂ FieldLayout.IsPadded message.bounds bodies ∧
    Padded (FieldLayout.uses NodeDescriptor) (message.fieldsOver bodies) bytes

/-- A node is also held if there are foreign records among its own fields only. -/
theorem isPadded_of_flat {message : NodeDescriptor} {bytes : Bytes}
    (padded : FieldLayout.IsPadded message bytes) : message.IsPadded bytes := by
  refine ⟨message.bounds.map encode, List.forall₂_map_right_iff.mpr ?_, padded⟩
  exact List.forall₂_same.mpr fun information _ => FieldLayout.isPadded_encode information

/-- Bytes that hold a node make it up. -/
theorem IsPadded.merges {message : NodeDescriptor} {bytes : Bytes}
    (padded : message.IsPadded bytes) : Merges merge blank bytes message := by
  obtain ⟨bodies, held, padded⟩ := padded
  have all := merges_fieldsOver blank message (held.imp fun _ _ => FieldLayout.IsPadded.merges_blank)
  have update_blank : (blank : NodeDescriptor).update message = message :=
    FieldLayout.update_blank message
  rw [update_blank] at all
  exact padded.merges (fun field wireType => (FieldLayout.merge_eq_none_iff field wireType).mpr) all

end NodeDescriptor

namespace Payload

/-- Whether a body holds a payload among records that the payload does not use. -/
def IsPadded : Payload → Bytes → Prop
  | text message, body => FieldLayout.IsPadded message body
  | tensor message, body => FieldLayout.IsPadded message body
  | solveStart message, body => FieldLayout.IsPadded message body
  | solveEnd message, body => FieldLayout.IsPadded message body
  | updateVariable message, body => FieldLayout.IsPadded message body
  | addNode message, body => message.IsPadded body
  | pruneNode message, body => FieldLayout.IsPadded message body

/-- The body that a payload is written with holds it, without anything foreign. -/
theorem isPadded_body (payload : Payload) : payload.IsPadded payload.body := by
  cases payload with
  | addNode message => exact NodeDescriptor.isPadded_of_flat (FieldLayout.isPadded_encode message)
  | _ => exact FieldLayout.isPadded_encode _

/-- A body that holds a payload makes it up. -/
theorem IsPadded.readFrom {payload : Payload} {body : Bytes} (padded : payload.IsPadded body) :
    payload.ReadFrom body := by
  cases payload with
  | addNode _ => exact NodeDescriptor.IsPadded.merges padded
  | _ => exact FieldLayout.IsPadded.merges_blank padded

end Payload

namespace Message

/-- Whether bytes hold a message among records that the message does not use, on
every level. -/
def IsPadded (message : Message) (bytes : Bytes) : Prop :=
  ∃ body, message.payload.IsPadded body ∧ Padded Envelope.uses (message.fieldsOver body) bytes

/-- An encoding holds its message with no record added. -/
theorem isPadded_encode (message : Message) : message.IsPadded message.encode := by
  refine ⟨message.payload.body, message.payload.isPadded_body, ?_⟩
  rw [← flatten_fieldsOver]
  exact Padded.flatten _ _

/-- A message is decoded from bytes that hold it, whatever records that it does not
use stand among its fields. -/
theorem decode_of_isPadded (message : Message) {bytes : Bytes} (padded : message.IsPadded bytes)
    (fits : bytes.length < 2 ^ 64) : decode bytes = .ok message := by
  obtain ⟨body, held, padded⟩ := padded
  have found := (merges_padded {} held.readFrom padded).mergeFields_eq_ok fits
  rw [decode, found]
  simp only [Envelope.update, supersede_default]
  rfl

/-- A variable with an upper bound. -/
def boundedVariable : VariableInformation where
  name := "x"
  upper := 0x4010000000000000

/-- A node at which the variable is bounded. -/
def boundedNode : Message where
  name := "bab"
  runId := "run-1"
  timestamp := 5
  payload := .addNode
    { coordinate := ⟨[0, 1]⟩
      lower := 0xFFF0000000000000
      upper := 0x3FF0000000000000
      bounds := [boundedVariable] }

/-- The variable behind a number in the place of its name. The number has two digits,
the last of which is zero. -/
def paddedVariable : Bytes :=
  (Encoder.key 1 .varint ++ [0x87, 0x00]) ++ WireMessage.encode boundedVariable

/-- The node with a body under the largest field number behind its path. -/
def paddedBody : Bytes :=
  Encoder.packedUInt32 1 [0, 1] ++
    ((Encoder.key 4294967295 .lengthDelimited ++ ([2] ++ [0x68, 0x69])) ++
      [Encoder.double 2 0xFFF0000000000000, Encoder.double 3 0x3FF0000000000000,
        Encoder.delimited 4 paddedVariable].flatten)

/-- The message behind a time of four bytes. -/
def paddedNode : Bytes :=
  (Encoder.key 3 .fixed32 ++ [1, 2, 3, 4]) ++ (boundedNode.fieldsOver paddedBody).flatten

/-- Records of no use on three levels make no difference. -/
theorem decode_of_isPadded_boundedNode :
    boundedNode.IsPadded paddedNode ∧ paddedNode.length < 2 ^ 64 ∧
      decode paddedNode = .ok boundedNode := by
  have name : IsRecord 1 .varint (Encoder.key 1 .varint ++ [0x87, 0x00]) :=
    .behind (by decide) (by decide) (isForm_key 1 (by decide) _)
      (.varint ⟨.next rfl (.last rfl), by decide⟩)
  have body : IsRecord 4294967295 .lengthDelimited
      (Encoder.key 4294967295 .lengthDelimited ++ ([2] ++ [0x68, 0x69])) :=
    .behind (by decide) (by decide) (isForm_key 4294967295 (by decide) _)
      (.lengthDelimited ⟨.last rfl, by decide⟩)
  have time : IsRecord 3 .fixed32 (Encoder.key 3 .fixed32 ++ [1, 2, 3, 4]) :=
    .behind (by decide) (by decide) (isForm_key 3 (by decide) _) (.fixed32 rfl)
  have variablePadded : FieldLayout.IsPadded boundedVariable paddedVariable :=
    .spare (by decide) name (FieldLayout.isPadded_encode boundedVariable)
  have bodyPadded : boundedNode.payload.IsPadded paddedBody :=
    ⟨[paddedVariable], .cons variablePadded .nil,
      .own (.spare (by decide) body (Padded.flatten _ _))⟩
  have padded : boundedNode.IsPadded paddedNode :=
    ⟨paddedBody, bodyPadded, .spare (by decide) time (Padded.flatten _ _)⟩
  have fits : paddedNode.length < 2 ^ 64 := by decide +kernel
  exact ⟨padded, fits, decode_of_isPadded boundedNode padded fits⟩

end Message

end MixedInteger
