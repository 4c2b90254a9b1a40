import MixedInteger.Wire.Decoder
import MixedInteger.Wire.Encoder

/-! # Messages of fields

A message is a sequence of fields. Encoding writes the fields in ascending order
of their numbers. Decoding starts from the blank message and merges one field
after the other; fields that the message does not know, or knows in another
encoding, are stepped over.
-/

namespace MixedInteger

/-- A type of messages that are laid out in fields. -/
class WireMessage (M : Type) where
  blank : M
  encode : M → Bytes
  /-- How a known field is merged into a message. -/
  merge : Nat → WireType → Option (M → Decoder M)

namespace Decoder

variable {M : Type}

/-- Merge the field whose key has been read, or step over it. -/
def mergeOrSkip (merge : Nat → WireType → Option (M → Decoder M)) (message : M) (field : Nat)
    (wireType : WireType) : Decoder M :=
  match merge field wireType with
  | some known => known message
  | none => do
      skip field wireType
      return message

/-- A field key takes at least one byte off the input. -/
theorem fieldKey_rest_length_lt {input : Bytes} {key : Nat × WireType} {rest : Bytes}
    (found : fieldKey.run input = ⟨.ok key, rest⟩) : rest.length < input.length := by
  change continueWith (varint.run input) _ = _ at found
  unfold continueWith at found
  split at found
  · rename_i number result
    have taken : varint.run input = ⟨.ok number, (varint.run input).rest⟩ := by rw [← result]
    refine Nat.lt_of_le_of_lt ?_ (varint_rest_length_lt taken)
    exact (congrArg Reading.rest found ▸ Decoder.rest_suffix _ _).length_le
  · cases found

/-- Merge every field of an input into a message. -/
def mergeFields (merge : Nat → WireType → Option (M → Decoder M)) (message : M) (input : Bytes) :
    Except WireError M :=
  if input.isEmpty then .ok message
  else
    match found : fieldKey.run input with
    | ⟨.error error, _⟩ => .error error
    | ⟨.ok (field, wireType), body⟩ =>
        match merged : (mergeOrSkip merge message field wireType).run body with
        | ⟨.error error, _⟩ => .error error
        | ⟨.ok next, rest⟩ =>
            have : rest.length < input.length :=
              Nat.lt_of_le_of_lt
                (congrArg Reading.rest merged ▸ Decoder.rest_suffix _ body).length_le
                (fieldKey_rest_length_lt found)
            mergeFields merge next rest
termination_by input.length

end Decoder

namespace WireMessage

variable {M : Type} [WireMessage M]

/-- The message that the fields of an input make up. -/
def decode (input : Bytes) : Except WireError M :=
  Decoder.mergeFields merge blank input

/-- The message in the body of a length-delimited field. -/
def decoder (field : Nat) : Decoder M := do
  let body ← Decoder.lengthDelimited field
  Decoder.ofExcept (decode body)

/-- A nested message, written even when it is empty. -/
def encodeField (field : Nat) (message : M) : Bytes :=
  Encoder.delimited field (encode message)

end WireMessage

end MixedInteger
