import MixedInteger.Proofs.Telemetry.Layout
import MixedInteger.Proofs.Wire.Interleaving

/-! # Repeated fields of telemetry messages

The path of a node, the counters of a tracked quantity and the extents of an array may
come in packed lists and one by one, in any mixture and among records of the other fields
(`decode_interleaved`).
-/

namespace MixedInteger

open Decoder WireMessage

variable {M α : Type}

namespace TensorMessage

/-- The extents of an array. -/
def sizesField : RepeatedField TensorMessage Int32 where
  field := 4
  convert := signedNumber
  list := sizes
  withList message sizes := { message with sizes }
  valid := by decide
  list_withList _ _ := rfl
  withList_list _ := rfl
  withList_withList _ _ _ := rfl
  list_blank := rfl
  appends := by
    rintro wireType body words (rfl | rfl) reads message
    all_goals
      exact (reads.map fun found => message.sizes ++ found.map signedNumber).map
        fun sizes => { message with sizes }
  others_apart := actsApart_of_uses <| by
    simp only [FieldLayout.uses, List.forall_mem_cons]
    exact
      ⟨fun _ => actsApart_of_set (fun message filename => { message with filename })
          (fun _ => rfl) (settlesBodies_string 1) fun _ _ _ => rfl,
        fun _ => actsApart_of_set (fun message group => { message with group })
          (fun _ => rfl) (settlesBodies_string 2) fun _ _ _ => rfl,
        fun _ => actsApart_of_set (fun message dataset => { message with dataset })
          (fun _ => rfl) (settlesBodies_string 3) fun _ _ _ => rfl,
        fun elsewhere => absurd rfl elsewhere, fun elsewhere => absurd rfl elsewhere, nofun⟩

end TensorMessage

namespace UpdateVariable

/-- The iteration counters of a tracked quantity. -/
def iterationField : RepeatedField UpdateVariable UInt32 where
  field := 2
  convert := UInt64.toUInt32
  list := iteration
  withList message iteration := { message with iteration }
  valid := by decide
  list_withList _ _ := rfl
  withList_list _ := rfl
  withList_withList _ _ _ := rfl
  list_blank := rfl
  appends := by
    rintro wireType body words (rfl | rfl) reads message
    all_goals
      exact (reads.map fun found => message.iteration ++ found.map UInt64.toUInt32).map
        fun iteration => { message with iteration }
  others_apart := actsApart_of_uses <| by
    simp only [FieldLayout.uses, List.forall_mem_cons]
    exact
      ⟨fun _ => actsApart_of_set (fun message name => { message with name })
          (fun _ => rfl) (settlesBodies_string 1) fun _ _ _ => rfl,
        fun elsewhere => absurd rfl elsewhere, fun elsewhere => absurd rfl elsewhere,
        fun _ => actsApart_of_set (fun message value => { message with value })
          (fun _ => rfl) settlesBodies_fixed64 fun _ _ _ => rfl, nofun⟩

end UpdateVariable

namespace NodeDescriptor

/-- The path of a node. -/
def pathField : RepeatedField NodeDescriptor UInt32 where
  field := 1
  convert := UInt64.toUInt32
  list message := message.coordinate.path
  withList message path := { message with coordinate := ⟨path⟩ }
  valid := by decide
  list_withList _ _ := rfl
  withList_list message := by cases message; rfl
  withList_withList _ _ _ := rfl
  list_blank := rfl
  appends := by
    rintro wireType body words (rfl | rfl) reads message
    all_goals
      exact ((reads.map fun found => message.coordinate.path ++ found.map UInt64.toUInt32).map
        Coordinate.mk).map fun coordinate => { message with coordinate }
  others_apart := actsApart_of_uses <| by
    simp only [FieldLayout.uses, List.forall_mem_cons]
    exact
      ⟨fun elsewhere => absurd rfl elsewhere, fun elsewhere => absurd rfl elsewhere,
        fun _ => actsApart_of_set (fun message lower => { message with lower })
          (fun _ => rfl) settlesBodies_fixed64 fun _ _ _ => rfl,
        fun _ => actsApart_of_set (fun message upper => { message with upper })
          (fun _ => rfl) settlesBodies_fixed64 fun _ _ _ => rfl,
        fun _ => actsApart_of_set
          (fun message information => { message with bounds := message.bounds ++ [information] })
          (fun _ => rfl) (settlesBodies_decoder 4) fun _ _ _ => rfl, nofun⟩

end NodeDescriptor

namespace PruneMessage

/-- The path of a closed node. -/
def pathField : RepeatedField PruneMessage UInt32 where
  field := 1
  convert := UInt64.toUInt32
  list message := message.coordinate.path
  withList _ path := { coordinate := ⟨path⟩ }
  valid := by decide
  list_withList _ _ := rfl
  withList_list message := by cases message; rfl
  withList_withList _ _ _ := rfl
  list_blank := rfl
  appends := by
    rintro wireType body words (rfl | rfl) reads message
    all_goals
      exact ((reads.map fun found => message.coordinate.path ++ found.map UInt64.toUInt32).map
        Coordinate.mk).map PruneMessage.mk
  others_apart := actsApart_of_uses <| by
    simp only [FieldLayout.uses, List.forall_mem_cons]
    exact ⟨fun elsewhere => absurd rfl elsewhere, fun elsewhere => absurd rfl elsewhere, nofun⟩

end PruneMessage

/-- Whether a list in messages of a type may be written in parts: with records of other
fields in between, the parts decode to what those records alone make up and the whole list,
each number contributing what stands for its low bits. That is what the list decodes to when
it is packed as a whole in front of the other records. -/
def DecodesParts (M : Type) [WireMessage M] (field : Nat) (packed : List α → Bytes)
    (lowBits : Nat → α) (withList : M → List α → M) : Prop :=
  ∀ numbers others bytes, Interleaved field numbers others bytes → bytes.length < 2 ^ 64 →
    decode bytes = (decode others.flatten : Except WireError M).map
      (withList · (numbers.map lowBits)) ∧
    ((packed (numbers.map lowBits) ++ others.flatten).length < 2 ^ 64 →
      decode bytes =
        (decode (packed (numbers.map lowBits) ++ others.flatten) : Except WireError M))

theorem RepeatedField.decodesParts [WireMessage M] (repeated : RepeatedField M α)
    {word : α → UInt64} {lowBits : Nat → α}
    (restores : ∀ value, repeated.convert (word value) = value)
    (converts : ∀ number, repeated.convert (UInt64.ofNat number) = lowBits number) :
    DecodesParts M repeated.field (fun values => Encoder.packed repeated.field (values.map word))
      lowBits repeated.withList := by
  intro numbers others bytes interleaved fits
  have found := repeated.decode_interleaved interleaved fits
  simp only [List.map_map, Function.comp_def, converts] at found
  refine ⟨found, fun whole => ?_⟩
  rw [found, repeated.decode_packed_others interleaved restores _ whole]

/-- **Packed and unpacked lists mean the same.** The path of a node and of a closed node, the
counters of a tracked quantity and the extents of an array may be cut into parts in any way,
each part packed or given number by number, with records of the other fields in between.
They decode to the whole list and to the fields that the other records make up, as if the
list had been packed as a whole. Of a number of more than 32 bits the low ones count. -/
theorem decode_parts :
    DecodesParts NodeDescriptor 1 (Encoder.packedUInt32 1) UInt32.ofNat
      (fun message path => { message with coordinate := ⟨path⟩ }) ∧
    DecodesParts PruneMessage 1 (Encoder.packedUInt32 1) UInt32.ofNat
      (fun _ path => { coordinate := ⟨path⟩ }) ∧
    DecodesParts UpdateVariable 2 (Encoder.packedUInt32 2) UInt32.ofNat
      (fun message iteration => { message with iteration }) ∧
    DecodesParts TensorMessage 4 (Encoder.packedInt32 4)
      (fun number => (UInt32.ofNat number).toInt32)
      fun message sizes => { message with sizes } := by
  exact
    ⟨NodeDescriptor.pathField.decodesParts UInt32.toUInt32_toUInt64 UInt64.toUInt32_ofNat',
      PruneMessage.pathField.decodesParts UInt32.toUInt32_toUInt64 UInt64.toUInt32_ofNat',
      UpdateVariable.iterationField.decodesParts UInt32.toUInt32_toUInt64 UInt64.toUInt32_ofNat',
      TensorMessage.sizesField.decodesParts signedNumber_signedWord
        fun number => congrArg UInt32.toInt32 (UInt64.toUInt32_ofNat' number)⟩

/-- The record of a file name. -/
def filenameRecord : Bytes := Encoder.key 1 .lengthDelimited ++ ([2] ++ [0x68, 0x35])

/-- The extents minus one and three around the name of the file: a packed list of one number,
an empty packed list, and a number of 33 bits by itself. -/
def extentsInParts : Bytes :=
  Encoder.key 4 .lengthDelimited ++ ([10] ++ [Varint.encode 18446744073709551615].flatten) ++
    (filenameRecord ++ (Encoder.key 4 .lengthDelimited ++ ([0] ++ [].flatten) ++
      (Encoder.key 4 .varint ++ Varint.encode 4294967299 ++ [])))

theorem decode_parts_extents :
    Interleaved 4 [18446744073709551615, 4294967299] [filenameRecord] extentsInParts ∧
      extentsInParts.length < 2 ^ 64 ∧
      decode extentsInParts = .ok { filename := "h5", sizes := [-1, 3] : TensorMessage } := by
  have key (wireType : WireType) := isForm_key 4 (by decide) wireType
  have size : [Varint.encode 18446744073709551615].flatten.length = 10 := by decide +kernel
  have interleaved :
      Interleaved 4 [18446744073709551615, 4294967299] [filenameRecord] extentsInParts :=
    .packed (key .lengthDelimited) (size ▸ ⟨.last rfl, by decide⟩)
      (.cons (Varint.isForm_encode (by decide)) .nil) <|
    .other (by decide) (.behind (by decide) (by decide) (isForm_key 1 (by decide) .lengthDelimited)
      (.lengthDelimited ⟨.last rfl, by decide⟩)) <|
    .packed (key .lengthDelimited) ⟨.last rfl, by decide⟩ .nil <|
    .single (key .varint) (Varint.isForm_encode (by decide)) .nil
  have fits : extentsInParts.length < 2 ^ 64 := by decide +kernel
  have others : decode [filenameRecord].flatten = .ok { filename := "h5" : TensorMessage } := by
    have same : [filenameRecord].flatten = encode { filename := "h5" : TensorMessage } := by
      decide +kernel
    rw [same]
    exact (FieldLayout.merges_encode _).mergeFields_eq_ok (by decide +kernel)
  refine ⟨interleaved, fits, ?_⟩
  rw [(decode_parts.2.2.2 _ _ _ interleaved fits).1, others]
  rfl

end MixedInteger
