import MixedInteger.Proofs.Wire.Reading
import MixedInteger.Wire.Message

/-! # Merging what was written

The bytes of a field, at the front of an input, turn the message read so far into
one in which the field is set. A field that was left out because it holds its
default leaves what the message had, so the fields of a message can be merged one
after the other whichever of them are there.
-/

namespace MixedInteger

/-- What a field holds after a later value of it was merged: a default value is
not written, so it does not take the place of an earlier one. -/
def supersede {α : Type} [DecidableEq α] (default earlier later : α) : α :=
  if later = default then earlier else later

section Supersede

variable {α : Type} [DecidableEq α] {default earlier later : α}

/-- The default supersedes nothing. -/
theorem supersede_of_eq (unset : later = default) : supersede default earlier later = earlier :=
  if_pos unset

theorem supersede_of_ne (set : later ≠ default) : supersede default earlier later = later :=
  if_neg set

/-- Nothing is lost when there was only the default before. -/
@[simp]
theorem supersede_default : supersede default default later = later := by
  rw [supersede]
  split
  · rename_i unset
    exact unset.symm
  · rfl

end Supersede

namespace Decoder

variable {M α : Type} {merge : Nat → WireType → Option (M → Decoder M)} {message next : M}

/-- Whether merging certain bytes turns one message into another, provided that
their number is a 64-bit number. -/
def Merges (merge : Nat → WireType → Option (M → Decoder M)) (message : M) (bytes : Bytes)
    (next : M) : Prop :=
  bytes.length < 2 ^ 64 →
    ∀ rest, mergeFields merge message (bytes ++ rest) = mergeFields merge next rest

theorem Merges.refl (message : M) : Merges merge message [] message := fun _ _ => rfl

/-- Fields one after the other are merged one after the other. -/
theorem Merges.trans {last : M} {front back : Bytes} (first : Merges merge message front next)
    (second : Merges merge next back last) : Merges merge message (front ++ back) last := by
  intro bound rest
  rw [List.length_append] at bound
  rw [List.append_assoc, first (by omega), second (by omega)]

theorem mergeFields_nil (message : M) : mergeFields merge message [] = .ok message := by
  rw [mergeFields]
  rfl

/-- A message that is made up of the merged bytes is what they decode to. -/
theorem Merges.mergeFields_eq_ok {bytes : Bytes} (merges : Merges merge message bytes next)
    (bound : bytes.length < 2 ^ 64) : mergeFields merge message bytes = .ok next := by
  have merged := merges bound []
  rwa [List.append_nil, mergeFields_nil] at merged

/-- Merging goes on after the first field, if that is accepted. -/
theorem mergeFields_eq_bind {field : Nat} {wireType : WireType} {input body rest : Bytes}
    {verdict : Except WireError M}
    (found : fieldKey.run input = ⟨.ok (field, wireType), body⟩)
    (merged : (mergeOrSkip merge message field wireType).run body = ⟨verdict, rest⟩) :
    mergeFields merge message input = verdict >>= fun next => mergeFields merge next rest := by
  have more : input.isEmpty = false := by
    rw [List.isEmpty_eq_false_iff]
    rintro rfl
    exact Nat.not_lt_zero _ (fieldKey_rest_length_lt found)
  rw [mergeFields, more]
  simp only [Bool.false_eq_true, ↓reduceIte]
  split
  · rename_i failed
    rw [found] at failed
    cases failed
  · rename_i taken
    rw [found] at taken
    cases taken
    split
    · rename_i failed
      rw [merged] at failed
      cases failed
      rfl
    · rename_i taken
      rw [merged] at taken
      cases taken
      rfl

/-- Merging ends at a key that cannot be read. -/
theorem mergeFields_of_error {input rest : Bytes} {fault : WireError} (more : input ≠ [])
    (failed : fieldKey.run input = ⟨.error fault, rest⟩) :
    mergeFields merge message input = .error fault := by
  rw [mergeFields, List.isEmpty_eq_false_iff.mpr more]
  simp only [Bool.false_eq_true, ↓reduceIte]
  split
  · rename_i other
    rw [failed] at other
    cases other
    rfl
  · rename_i found
    rw [failed] at found
    cases found

/-- Where merging goes on is all that it takes from a key. -/
theorem mergeFields_eq_of_fieldKey {input other rest : Bytes} {key : Nat × WireType}
    (found : fieldKey.run input = ⟨.ok key, rest⟩)
    (same : fieldKey.run other = ⟨.ok key, rest⟩) :
    mergeFields merge message input = mergeFields merge message other := by
  rw [mergeFields_eq_bind found rfl, mergeFields_eq_bind same rfl]

/-- What merging certain bytes does to a message, whatever follows them, provided that
their number is a 64-bit number. -/
def Acts (merge : Nat → WireType → Option (M → Decoder M)) (message : M) (bytes : Bytes)
    (outcome : Except WireError M) : Prop :=
  bytes.length < 2 ^ 64 → ∀ rest,
    mergeFields merge message (bytes ++ rest) = outcome >>= fun next => mergeFields merge next rest

section Fields

variable (field : Nat) (valid : 0 < field ∧ field < 2 ^ 32)

include valid

/-- The key of a field is a form of the number that stands for it. -/
theorem isForm_key (wireType : WireType) :
    Varint.IsForm (Encoder.key field wireType) (field * 8 + wireType.bits) := by
  have bits := wireType.bits_lt
  exact Varint.isForm_encode (by omega)

/-- Behind any form of its key, a field does what its body settles. -/
theorem acts_of_settles {wireType : WireType} {key body : Bytes} {verdict : Except WireError M}
    (form : Varint.IsForm key (field * 8 + wireType.bits))
    (settles : (mergeOrSkip merge message field wireType).Settles body verdict) :
    Acts merge message (key ++ body) verdict := by
  intro _ rest
  rw [List.append_assoc]
  exact mergeFields_eq_bind (fieldKey_reads valid.1 valid.2 wireType form _) (settles rest)

/-- A field is merged behind any form of its key. -/
theorem merges_of_reads {wireType : WireType} {decoder : Decoder α} {set : α → M}
    {key bytes : Bytes} {value : α}
    (form : Varint.IsForm key (field * 8 + wireType.bits))
    (known : mergeOrSkip merge message field wireType =
      (decoder >>= fun found => pure (set found)))
    (reads : bytes.length < 2 ^ 64 → decoder.Reads bytes value) :
    Merges merge message (key ++ bytes) (set value) := by
  intro bound
  have fits : bytes.length < 2 ^ 64 := by
    rw [List.length_append] at bound
    omega
  have merged : (mergeOrSkip merge message field wireType).Reads bytes (set value) := by
    rw [known]
    exact (reads fits).map set
  exact acts_of_settles field valid form merged.settles bound

/-- A field that is written is merged. -/
theorem merges_key {wireType : WireType} {decoder : Decoder α} {set : α → M} {bytes : Bytes}
    {value : α}
    (known : mergeOrSkip merge message field wireType =
      (decoder >>= fun found => pure (set found)))
    (reads : bytes.length < 2 ^ 64 → decoder.Reads bytes value) :
    Merges merge message (Encoder.key field wireType ++ bytes) (set value) :=
  merges_of_reads field valid (isForm_key field valid wireType) known reads

/-- A body behind its length is merged. -/
theorem merges_delimited {decoder : Decoder α} {body : Bytes} {value : α} (set : α → M)
    (known : mergeOrSkip merge message field .lengthDelimited =
      (decoder >>= fun found => pure (set found)))
    (reads : body.length < 2 ^ 64 →
      decoder.Reads (Varint.encode body.length ++ body) value) :
    Merges merge message (Encoder.delimited field body) (set value) := by
  rw [Encoder.delimited, List.append_assoc]
  refine merges_key field valid known fun bound => reads ?_
  rw [List.length_append] at bound
  omega

/-- A text is merged and supersedes an earlier one. -/
theorem merges_string (set : String → M) (kept text : String)
    (known : mergeOrSkip merge (set kept) field .lengthDelimited =
      (string field >>= fun found => pure (set found))) :
    Merges merge (set kept) (Encoder.string field text) (set (supersede "" kept text)) := by
  rw [Encoder.string]
  split
  · rename_i empty
    rw [supersede_of_eq (String.isEmpty_iff.mp empty)]
    exact Merges.refl (set kept)
  · rename_i full
    rw [supersede_of_ne fun empty => full (String.isEmpty_iff.mpr empty)]
    exact merges_delimited field valid set known (string_reads field)

/-- A 64-bit number is merged and supersedes an earlier one. -/
theorem merges_uint64 (set : UInt64 → M) (kept value : UInt64)
    (known : mergeOrSkip merge (set kept) field .varint =
      (varint >>= fun found => pure (set found))) :
    Merges merge (set kept) (Encoder.uint64 field value) (set (supersede 0 kept value)) := by
  rw [Encoder.uint64]
  split
  · rename_i zero
    rw [supersede_of_eq zero]
    exact Merges.refl (set kept)
  · rename_i positive
    rw [supersede_of_ne positive]
    exact merges_key field valid known fun _ => varint_reads_toNat value

/-- A 32-bit number is merged and supersedes an earlier one. -/
theorem merges_uint32 (set : UInt32 → M) (kept value : UInt32)
    (known : mergeOrSkip merge (set kept) field .varint =
      (uint32 >>= fun found => pure (set found))) :
    Merges merge (set kept) (Encoder.uint32 field value) (set (supersede 0 kept value)) := by
  have zero_iff : value.toUInt64 = (0 : UInt32).toUInt64 ↔ value = 0 := UInt32.toUInt64_inj
  rw [Encoder.uint32, Encoder.uint64]
  split
  · rename_i zero
    rw [supersede_of_eq (zero_iff.mp zero)]
    exact Merges.refl (set kept)
  · rename_i positive
    rw [supersede_of_ne fun zero => positive (zero_iff.mpr zero)]
    exact merges_key field valid known fun _ => uint32_reads value

/-- A binary64 number is merged, whatever its bits. -/
theorem merges_double (set : UInt64 → M) (bits : UInt64)
    (known : mergeOrSkip merge message field .fixed64 =
      (fixed64 >>= fun found => pure (set found))) :
    Merges merge message (Encoder.double field bits) (set bits) :=
  merges_key field valid known fun _ => fixed64_reads bits

/-- A packed list is merged, and none is written where it is empty. -/
theorem merges_packed {decoder : Decoder α} {words : List UInt64} {value : α} (set : α → M)
    (known : mergeOrSkip merge message field .lengthDelimited =
      (decoder >>= fun found => pure (set found)))
    (reads : (Encoder.packedBody words).length < 2 ^ 64 →
      decoder.Reads (Varint.encode (Encoder.packedLength words) ++ Encoder.packedBody words)
        value)
    (default : words = [] → set value = message) :
    Merges merge message (Encoder.packed field words) (set value) := by
  rw [Encoder.packed]
  split
  · rename_i empty
    rw [default (List.isEmpty_iff.mp empty)]
    exact Merges.refl message
  · rw [List.append_assoc]
    refine merges_key field valid known fun bound => reads ?_
    rw [List.length_append] at bound
    omega

end Fields

end Decoder

namespace WireMessage

open Decoder

variable {M : Type} [WireMessage M] {message : M}

/-- A nested message is read from any body that merges into it. -/
theorem decoder_reads (field : Nat) {body : Bytes} (merges : Merges merge blank body message)
    (bound : body.length < 2 ^ 64) :
    (decoder field).Reads (Varint.encode body.length ++ body) message := by
  refine (lengthDelimited_reads field (Varint.isForm_encode bound) bound).bind_nil ?_
  rw [decode, merges.mergeFields_eq_ok bound]
  exact reads_pure message

end WireMessage

end MixedInteger
