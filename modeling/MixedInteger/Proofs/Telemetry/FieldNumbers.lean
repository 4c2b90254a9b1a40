import MixedInteger.Proofs.Telemetry.Layout

/-! # Field numbers of more than 32 bits

A field key is a 64-bit number of which a reader keeps the lowest 35 bits, three for the
encoding and 32 for the number of the field. So the key of a field number that fits in 32
bits is found as it was written, in any form, and a record under a larger number is merged
as one of the field that is left of the number (`Envelope.mergeFields_of_key`).
-/

namespace MixedInteger

open Decoder WireMessage

namespace Envelope

/-- A number that is written as a key is found as the key of a field exactly if it agrees
with the number of that key in its lowest 35 bits. -/
theorem run_key_encode_iff {field : Nat} (positive : 0 < field) (wireType : WireType)
    (word : UInt64) (rest : Bytes) :
    key.run (Varint.encode word.toNat ++ rest) = ⟨.ok (some (field, wireType)), rest⟩ ↔
      word.toNat % 2 ^ 35 = field * 8 + wireType.bits := by
  have read := varint_reads_toNat word rest
  rw [key_run_iff, fieldKey_run_iff]
  constructor
  · rintro ⟨-, other, found, agrees⟩
    rw [read] at found
    cases found
    exact agrees
  · exact fun agrees => ⟨positive, word, read, agrees⟩

/-- **Keys are found up to the 32 lowest bits of their field number.** The number that was
read as a key agrees with the key of the field that was found in its lowest 35 bits, and is
that key exactly if its field number fits in 32 bits. Other numbers are found as the same
key exactly if they agree with it in these bits. The record is merged into any envelope as if
the key of that field stood there. -/
theorem mergeFields_of_key {input rest : Bytes} {field : Nat} {wireType : WireType}
    (found : key.run input = ⟨.ok (some (field, wireType)), rest⟩) :
    ∃ word, varint.run input = ⟨.ok word, rest⟩ ∧
      word.toNat % 2 ^ 35 = field * 8 + wireType.bits ∧
      (word.toNat = field * 8 + wireType.bits ↔ word.toNat / 8 < 2 ^ 32) ∧
      (∀ (other : UInt64) tail,
        key.run (Varint.encode other.toNat ++ tail) = ⟨.ok (some (field, wireType)), tail⟩ ↔
          other.toNat % 2 ^ 35 = word.toNat % 2 ^ 35) ∧
      ∀ envelope : Envelope, mergeFields merge envelope input =
        mergeFields merge envelope (Encoder.key field wireType ++ rest) := by
  have bits := wireType.bits_lt
  have taken := key_run_iff.mp found
  obtain ⟨positive, word, read, agrees⟩ := fieldKey_run_iff.mp taken
  have small : field < 2 ^ 32 := by omega
  refine ⟨word, read, agrees, ⟨fun same => by omega, fun fits => by omega⟩,
    fun other tail => ?_, fun envelope => ?_⟩
  · rw [run_key_encode_iff positive, agrees]
  · have written := fieldKey_reads positive small wireType
      (isForm_key field ⟨positive, small⟩ wireType) rest
    exact mergeFields_eq_of_fieldKey taken written

/-- A record under a field number of 33 bits whose lower bits are those of the name. -/
def unknownRecord : Bytes := Varint.encode (4294967297 * 8 + 2) ++ [1, 0x78]

theorem run_varint_unknownRecord :
    varint.run unknownRecord = ⟨.ok 34359738378, [1, 0x78]⟩ :=
  varint_run_iff.mpr ⟨_, _, rfl, Varint.isForm_encode (by decide), rfl⟩

theorem run_fieldKey_unknownRecord :
    fieldKey.run unknownRecord = ⟨.ok (1, .lengthDelimited), [1, 0x78]⟩ :=
  fieldKey_run_iff.mpr ⟨by decide, _, run_varint_unknownRecord, by decide⟩

theorem mergeFields_of_key_unknownRecord :
    key.run unknownRecord = ⟨.ok (some (1, .lengthDelimited)), [1, 0x78]⟩ ∧
      ∀ envelope : Envelope,
        mergeFields merge envelope unknownRecord =
          mergeFields merge envelope (Encoder.key 1 .lengthDelimited ++ [1, 0x78]) := by
  have found := key_run_iff.mpr run_fieldKey_unknownRecord
  obtain ⟨_, _, _, _, _, merged⟩ := mergeFields_of_key found
  exact ⟨found, merged⟩

end Envelope

namespace Message

/-- The end of a solve. -/
def endOfSolve : Message where
  name := "n"
  runId := "r"
  timestamp := 0
  payload := .solveEnd {}

/-- The field number of the record does not fit in 32 bits, and yet the record is taken for
the name: the key that was read is not that of the field, and the name is overwritten. -/
theorem name_overwritten_by_unknownRecord :
    key.run Envelope.unknownRecord = ⟨.ok (some (1, .lengthDelimited)), [1, 0x78]⟩ ∧
      varint.run Envelope.unknownRecord = ⟨.ok 34359738378, [1, 0x78]⟩ ∧
      (34359738378 : UInt64).toNat ≠ 1 * 8 + WireType.lengthDelimited.bits ∧
      decode (endOfSolve.encode ++ Envelope.unknownRecord) = .ok { endOfSolve with name := "x" } := by
  refine ⟨key_run_iff.mpr Envelope.run_fieldKey_unknownRecord,
    Envelope.run_varint_unknownRecord, by decide, ?_⟩
  have fits : endOfSolve.encode.length < 2 ^ 64 := by decide +kernel
  have name : Encoder.key 1 .lengthDelimited ++ [1, 0x78] = Encoder.string 1 "x" := by
    decide +kernel
  have written := fieldKey_reads (by decide) (by decide) .lengthDelimited
    (isForm_key 1 (by decide) .lengthDelimited) [1, 0x78]
  have renamed : Merges Envelope.merge (({} : Envelope).update endOfSolve)
      (Encoder.string 1 "x") { ({} : Envelope).update endOfSolve with name := "x" } :=
    merges_string 1 (by decide) (fun name => { ({} : Envelope).update endOfSolve with name }) "n"
      "x" rfl
  rw [decode, merges_encode {} endOfSolve fits,
    mergeFields_eq_of_fieldKey Envelope.run_fieldKey_unknownRecord written, name,
    renamed.mergeFields_eq_ok (by decide +kernel)]
  rfl

end Message

end MixedInteger
