import MixedInteger.Proofs.Wire.Merging

/-! # Fields among records of no use

A record is a field key followed by a body in the encoding that the key names. A
message steps over a record of a field that it does not have, or has in another
encoding, and takes exactly the bytes of the record off its input. So records of
no use may stand before, between and after the fields of a message without
changing what the fields merge to (`Padded.merges`).
-/

namespace MixedInteger

/-- The bodies that a record may have in an encoding. The numbers in them may be
given in any form that a reader accepts. -/
inductive WireType.IsBody : WireType → Bytes → Prop
  | varint {bytes : Bytes} {number : Nat} (form : Varint.IsForm bytes number) :
      IsBody .varint bytes
  | fixed64 {bytes : Bytes} (size : bytes.length = 8) : IsBody .fixed64 bytes
  | fixed32 {bytes : Bytes} (size : bytes.length = 4) : IsBody .fixed32 bytes
  | lengthDelimited {length content : Bytes} (form : Varint.IsForm length content.length) :
      IsBody .lengthDelimited (length ++ content)

/-- Well-formed records of a field in an encoding. -/
inductive IsRecord (field : Nat) (wireType : WireType) : Bytes → Prop
  | behind {key body : Bytes} (positive : 0 < field) (small : field < 2 ^ 32)
      (form : Varint.IsForm key (field * 8 + wireType.bits)) (isBody : wireType.IsBody body) :
      IsRecord field wireType (key ++ body)

/-- Bytes that hold certain fields in order, and before, between and after them
records that are of no use: each of a field, or in an encoding of it, that is not
among those in use. -/
inductive Padded (uses : List (Nat × WireType)) : List Bytes → Bytes → Prop
  | nil : Padded uses [] []
  | spare {field : Nat} {wireType : WireType} {record bytes : Bytes} {fields : List Bytes}
      (unused : (field, wireType) ∉ uses) (isRecord : IsRecord field wireType record)
      (rest : Padded uses fields bytes) : Padded uses fields (record ++ bytes)
  | own {field bytes : Bytes} {fields : List Bytes} (rest : Padded uses fields bytes) :
      Padded uses (field :: fields) (field ++ bytes)

/-- Fields one after the other, with no record among them. -/
theorem Padded.flatten (uses : List (Nat × WireType)) (fields : List Bytes) :
    Padded uses fields fields.flatten := by
  induction fields with
  | nil => exact .nil
  | cons field fields ih => exact ih.own

namespace Decoder

variable {M : Type} {merge : Nat → WireType → Option (M → Decoder M)} {message : M}

/-- A body is stepped over. -/
theorem skip_reads (field : Nat) {wireType : WireType} {body : Bytes}
    (isBody : wireType.IsBody body) (bound : body.length < 2 ^ 64) :
    (skip field wireType).Reads body () := by
  cases isBody with
  | varint form => exact (varint_reads form).map fun _ => ()
  | fixed64 size =>
      have reads := (take_reads body .fixed64).map fun _ => ()
      rwa [size] at reads
  | fixed32 size =>
      have reads := (take_reads body .fixed32).map fun _ => ()
      rwa [size] at reads
  | lengthDelimited form =>
      rw [List.length_append] at bound
      exact (lengthDelimited_reads field form (by omega)).map fun _ => ()

/-- A record of no use leaves the message as it is. -/
theorem merges_record {field : Nat} {wireType : WireType} {record : Bytes}
    (isRecord : IsRecord field wireType record) (unused : merge field wireType = none) :
    Merges merge message record message := by
  cases isRecord with
  | behind positive small form isBody =>
      have known : mergeOrSkip merge message field wireType =
          (skip field wireType >>= fun _ => pure message) := by
        rw [mergeOrSkip, unused]
      exact merges_of_reads field ⟨positive, small⟩ form known (skip_reads field isBody)

/-- Fields that turn one message into another, one field after the other. -/
inductive MergesAll (merge : Nat → WireType → Option (M → Decoder M)) :
    M → List Bytes → M → Prop
  | nil {message : M} : MergesAll merge message [] message
  | cons {message next last : M} {field : Bytes} {fields : List Bytes}
      (first : Merges merge message field next) (others : MergesAll merge next fields last) :
      MergesAll merge message (field :: fields) last

end Decoder

open Decoder WireMessage

/-- Records of no use among the fields make no difference. -/
theorem Padded.merges {M : Type} {merge : Nat → WireType → Option (M → Decoder M)}
    {message last : M} {uses : List (Nat × WireType)} {fields : List Bytes} {bytes : Bytes}
    (padded : Padded uses fields bytes)
    (ignores : ∀ field wireType, (field, wireType) ∉ uses → merge field wireType = none)
    (all : MergesAll merge message fields last) : Merges merge message bytes last := by
  -- A record of no use leaves the fields that are still to come as they are, so the
  -- chain of messages advances at the own fields only.
  induction padded generalizing message with
  | nil =>
      cases all
      exact Merges.refl _
  | spare unused isRecord _ ih =>
      exact (merges_record isRecord (ignores _ _ unused)).trans (ih all)
  | own _ ih =>
      cases all with
      | cons first others => exact first.trans (ih others)

/-- How messages of a type are laid out in fields. -/
class FieldLayout (M : Type) [WireMessage M] where
  /-- The fields of a message, each with an encoding in which it is accepted. -/
  uses : List (Nat × WireType)
  /-- What each field contributes to an encoding, in order. -/
  fields : M → List Bytes
  /-- An earlier message after the fields of a later one were merged into it. -/
  update : M → M → M
  flatten_fields : ∀ message, (fields message).flatten = encode message
  merge_eq_none_iff : ∀ field wireType,
    (merge field wireType : Option (M → Decoder M)) = none ↔ (field, wireType) ∉ uses
  merges_fields : ∀ earlier later, MergesAll merge earlier (fields later) (update earlier later)
  update_blank : ∀ message, update blank message = message

namespace FieldLayout

variable {M : Type} [WireMessage M] [FieldLayout M]

/-- Whether bytes hold the fields of a message among records that it does not use. -/
def IsPadded (message : M) (bytes : Bytes) : Prop := Padded (uses M) (fields message) bytes

/-- The encoding of a message holds its fields, with nothing among them. -/
theorem isPadded_encode (message : M) : IsPadded message (encode message) := by
  rw [← flatten_fields]
  exact Padded.flatten _ _

/-- Bytes that hold the fields of a message are merged as an update by it. -/
theorem IsPadded.merges (earlier : M) {later : M} {bytes : Bytes} (padded : IsPadded later bytes) :
    Merges merge earlier bytes (update earlier later) :=
  Padded.merges padded (fun field wireType => (merge_eq_none_iff field wireType).mpr)
    (merges_fields earlier later)

/-- Bytes that hold the fields of a message make it up. -/
theorem IsPadded.merges_blank {message : M} {bytes : Bytes} (padded : IsPadded message bytes) :
    Merges merge blank bytes message := by
  have merges := padded.merges blank
  rwa [update_blank] at merges

/-- The encoding of a message makes it up. -/
theorem merges_encode (message : M) : Merges merge blank (encode message) message :=
  (isPadded_encode message).merges_blank

/-- Encodings one after the other make up the update of the first by the second. -/
theorem decode_append (earlier later : M)
    (fits : (encode earlier ++ encode later).length < 2 ^ 64) :
    decode (encode earlier ++ encode later) = .ok (update earlier later) :=
  ((merges_encode earlier).trans ((isPadded_encode later).merges earlier)).mergeFields_eq_ok fits

end FieldLayout

end MixedInteger
