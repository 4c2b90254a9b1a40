import MixedInteger.Proofs.Outcome
import MixedInteger.Proofs.Wire.Records

/-! # Repeated fields in parts

The numbers of a repeated field may be written in parts: in packed lists and one by one,
with records of other fields in between. What another record does to a message does not
depend on the list that the message holds, and does nothing to that list
(`ActsApart`). So the parts add up to the whole list, and the other
fields are those of the other records alone (`RepeatedField.decode_interleaved`).
-/

namespace MixedInteger

open Decoder WireMessage

variable {M α β : Type}

/-- Bytes that hold the numbers of a repeated field in order, in packed lists of any length
and in records of one number, and in between the records of other fields, in order. Keys,
lengths and numbers may be given in any form that a reader accepts. -/
inductive Interleaved (field : Nat) : List Nat → List Bytes → Bytes → Prop
  | nil : Interleaved field [] [] []
  | packed {key length bytes : Bytes} {digits others : List Bytes} {front numbers : List Nat}
      (keyForm : Varint.IsForm key (field * 8 + WireType.lengthDelimited.bits))
      (lengthForm : Varint.IsForm length digits.flatten.length)
      (forms : List.Forall₂ Varint.IsForm digits front)
      (rest : Interleaved field numbers others bytes) :
      Interleaved field (front ++ numbers) others (key ++ (length ++ digits.flatten) ++ bytes)
  | single {key digits bytes : Bytes} {others : List Bytes} {number : Nat} {numbers : List Nat}
      (keyForm : Varint.IsForm key (field * 8 + WireType.varint.bits))
      (form : Varint.IsForm digits number) (rest : Interleaved field numbers others bytes) :
      Interleaved field (number :: numbers) others (key ++ digits ++ bytes)
  | other {another : Nat} {wireType : WireType} {record bytes : Bytes} {others : List Bytes}
      {numbers : List Nat} (elsewhere : another ≠ field)
      (isRecord : IsRecord another wireType record)
      (rest : Interleaved field numbers others bytes) :
      Interleaved field numbers (record :: others) (record ++ bytes)

namespace Interleaved

variable {field : Nat} {numbers : List Nat} {others : List Bytes} {bytes : Bytes}

/-- The other records are records of other fields. -/
theorem exists_isRecord (interleaved : Interleaved field numbers others bytes) :
    ∀ record ∈ others, ∃ another wireType, another ≠ field ∧ IsRecord another wireType record := by
  induction interleaved with
  | nil => exact nofun
  | packed _ _ _ _ ih => exact ih
  | single _ _ _ ih => exact ih
  | other elsewhere isRecord _ ih =>
      exact List.forall_mem_cons.mpr ⟨⟨_, _, elsewhere, isRecord⟩, ih⟩

/-- The other records alone hold an empty list. -/
theorem others_flatten (interleaved : Interleaved field numbers others bytes) :
    Interleaved field [] others others.flatten := by
  induction interleaved with
  | nil => exact .nil
  | packed _ _ _ _ ih => exact ih
  | single _ _ _ ih => exact ih
  | other elsewhere isRecord _ ih => exact .other elsewhere isRecord ih

/-- The other records are no longer than the whole. -/
theorem length_others_le (interleaved : Interleaved field numbers others bytes) :
    others.flatten.length ≤ bytes.length := by
  induction interleaved with
  | nil => exact Nat.le_refl _
  | packed _ _ _ _ ih | single _ _ _ ih =>
      rw [List.length_append]
      omega
  | other _ _ _ ih =>
      rw [List.flatten_cons, List.length_append, List.length_append]
      omega

/-- A list that is written as a whole in front of other records. -/
theorem packed_first (valid : 0 < field ∧ field < 2 ^ 32) {words : List UInt64}
    (fits : (Encoder.packedBody words).length < 2 ^ 64)
    (interleaved : Interleaved field [] others bytes) :
    Interleaved field (words.map UInt64.toNat) others (Encoder.packed field words ++ bytes) := by
  rw [Encoder.packed]
  split
  · rename_i empty
    rwa [List.isEmpty_iff.mp empty]
  · have body : Encoder.packedBody words =
        (words.map fun word => Varint.encode word.toNat).flatten := List.flatMap_def
    have whole := packed (isForm_key field valid .lengthDelimited)
      (body ▸ Varint.isForm_encode fits) (forms_packed words) interleaved
    rwa [List.append_nil, ← body, length_packedBody, ← List.append_assoc] at whole

end Interleaved

/-- A packed field is no shorter than its body. -/
theorem Encoder.length_packedBody_le (field : Nat) (words : List UInt64) :
    (packedBody words).length ≤ (packed field words).length := by
  rw [packed]
  split
  · rename_i empty
    rw [List.isEmpty_iff.mp empty]
    exact Nat.le_refl 0
  · rw [List.length_append]
    omega

namespace Decoder

/-- Whether a decoder settles every body of an encoding. -/
def SettlesBodies (decoder : Decoder α) (wireType : WireType) : Prop :=
  ∀ body, wireType.IsBody body → body.length < 2 ^ 64 → ∃ verdict, decoder.Settles body verdict

/-- Whatever is done with the body of a length-delimited field settles it, if it needs no more
bytes. -/
theorem settlesBodies_lengthDelimited (field : Nat) {next : Bytes → Decoder α}
    (settles : ∀ content, ∃ verdict, (next content).Settles [] verdict) :
    (lengthDelimited field >>= next).SettlesBodies .lengthDelimited := by
  intro body isBody bound
  cases isBody with
  | lengthDelimited form =>
      rw [List.length_append] at bound
      obtain ⟨verdict, settled⟩ := settles _
      exact ⟨verdict, (lengthDelimited_reads field form (by omega)).bind_settles settled⟩

/-- Texts are settled, well formed or not. -/
theorem settlesBodies_string (field : Nat) : (string field).SettlesBodies .lengthDelimited := by
  refine settlesBodies_lengthDelimited field fun content => ?_
  cases text? content with
  | some text => exact ⟨_, (reads_pure text).settles⟩
  | none => exact ⟨_, settles_ofExcept (.error (.invalidUtf8 field))⟩

/-- Nested messages are settled, well formed or not. -/
theorem settlesBodies_decoder [WireMessage M] (field : Nat) :
    (WireMessage.decoder field : Decoder M).SettlesBodies .lengthDelimited :=
  settlesBodies_lengthDelimited field fun content => ⟨_, settles_ofExcept (decode content)⟩

/-- Words of 64 bits are settled. -/
theorem settlesBodies_fixed64 : fixed64.SettlesBodies .fixed64 := by
  intro body isBody _
  cases isBody with
  | fixed64 size =>
      have reads := (take_reads body .fixed64).map word
      rw [size] at reads
      exact ⟨_, reads.settles⟩

end Decoder

/-- Whether a field in an encoding is settled with every body that it may have, and what it
does to a message neither depends on a list in the message nor changes it. -/
def ActsApart [WireMessage M] (withList : M → List α → M) (field : Nat) (wireType : WireType) :
    Prop :=
  ∀ body, wireType.IsBody body → body.length < 2 ^ 64 → ∃ verdict : M → Except WireError M,
    (∀ message, (mergeOrSkip merge message field wireType).Settles body (verdict message)) ∧
      ∀ message values, verdict (withList message values) =
        (verdict message).map (withList · values)

section ActsApart

variable [WireMessage M] {withList : M → List α → M} {field : Nat} {wireType : WireType}

/-- A field is set to what its decoder finds. -/
theorem actsApart_of_set {decoder : Decoder β} (set : M → β → M)
    (known : ∀ message, mergeOrSkip merge message field wireType =
      (decoder >>= fun found => pure (set message found)))
    (settles : decoder.SettlesBodies wireType)
    (apart : ∀ message values found,
      set (withList message values) found = withList (set message found) values) :
    ActsApart withList field wireType := by
  intro body isBody bound
  obtain ⟨verdict, settled⟩ := settles body isBody bound
  refine ⟨fun message => verdict.map (set message), fun message => ?_, fun message values => ?_⟩
  · rw [known]
    exact settled.map (set message)
  · cases verdict with
    | error fault => rfl
    | ok found => exact congrArg Except.ok (apart message values found)

/-- A field of no use is stepped over. -/
theorem actsApart_of_unused (unused : merge field wireType = (none : Option (M → Decoder M))) :
    ActsApart withList field wireType := by
  have skips : (skip field wireType).SettlesBodies wireType := fun body isBody bound =>
    ⟨_, (skip_reads field isBody bound).settles⟩
  refine actsApart_of_set (fun message _ => message) (fun message => ?_) skips fun _ _ _ => rfl
  rw [mergeOrSkip, unused]

/-- Only the fields in use have to be looked at. -/
theorem actsApart_of_uses [FieldLayout M] {own : Nat}
    (used : ∀ use ∈ FieldLayout.uses M, use.1 ≠ own → ActsApart withList use.1 use.2) :
    ∀ field wireType, field ≠ own → ActsApart withList field wireType := by
  intro field wireType elsewhere
  by_cases member : (field, wireType) ∈ FieldLayout.uses M
  · exact used _ member elsewhere
  · exact actsApart_of_unused ((FieldLayout.merge_eq_none_iff field wireType).mpr member)

end ActsApart

/-- A repeated field of numbers in messages of a type. -/
structure RepeatedField (M α : Type) [WireMessage M] where
  field : Nat
  /-- What a word in the list stands for. -/
  convert : UInt64 → α
  list : M → List α
  withList : M → List α → M
  valid : 0 < field ∧ field < 2 ^ 32
  list_withList : ∀ message values, list (withList message values) = values
  withList_list : ∀ message, withList message (list message) = message
  withList_withList : ∀ message earlier later,
    withList (withList message earlier) later = withList message later
  list_blank : list blank = []
  /-- Either form of the field appends to the list. -/
  appends : ∀ {wireType body words}, wireType = .varint ∨ wireType = .lengthDelimited →
    (repeated field wireType).Reads body words → ∀ message,
      (mergeOrSkip merge message field wireType).Reads body
        (withList message (list message ++ words.map convert))
  /-- Any other field leaves the list alone. -/
  others_apart : ∀ other wireType, other ≠ field → ActsApart withList other wireType

namespace RepeatedField

variable [WireMessage M] (repeated : RepeatedField M α) {numbers : List Nat}
  {others : List Bytes} {bytes : Bytes}

/-- Where the list is kept, the list that was there is. -/
theorem list_of_verdict {verdict : M → Except WireError M}
    (apart : ∀ message values, verdict (repeated.withList message values) =
      (verdict message).map (repeated.withList · values)) {message next : M}
    (accepted : verdict message = .ok next) : repeated.list next = repeated.list message := by
  have same := apart message (repeated.list message)
  rw [repeated.withList_list, accepted] at same
  have kept : next = repeated.withList next (repeated.list message) := Except.ok.inj same
  rw [kept, repeated.list_withList]

/-- What a record of another field does to a message. -/
theorem exists_acts {other : Nat} {wireType : WireType} {record : Bytes}
    (elsewhere : other ≠ repeated.field) (isRecord : IsRecord other wireType record)
    (bound : record.length < 2 ^ 64) :
    ∃ verdict : M → Except WireError M,
      (∀ message, Acts merge message record (verdict message)) ∧
        ∀ message values, verdict (repeated.withList message values) =
          (verdict message).map (repeated.withList · values) := by
  cases isRecord with
  | behind positive small form isBody =>
      rw [List.length_append] at bound
      obtain ⟨verdict, settled, apart⟩ := repeated.others_apart _ _ elsewhere _ isBody (by omega)
      exact ⟨verdict, fun message => acts_of_settles other ⟨positive, small⟩ form (settled message),
        apart⟩

/-- Records of other fields do the same to a message whatever its list, and leave the list
alone. -/
theorem mergeFields_others
    (records : ∀ record ∈ others, ∃ other wireType, other ≠ repeated.field ∧
      IsRecord other wireType record)
    (fits : others.flatten.length < 2 ^ 64) (message : M) (values : List α) :
    mergeFields merge (repeated.withList message values) others.flatten =
      (mergeFields merge message others.flatten).map (repeated.withList · values) := by
  induction others generalizing message with
  | nil =>
      rw [List.flatten_nil, mergeFields_nil, mergeFields_nil]
      rfl
  | cons record others ih =>
      obtain ⟨⟨other, wireType, elsewhere, isRecord⟩, later⟩ := List.forall_mem_cons.mp records
      rw [List.flatten_cons, List.length_append] at fits
      have bound : record.length < 2 ^ 64 := by omega
      obtain ⟨verdict, acts, apart⟩ := repeated.exists_acts elsewhere isRecord bound
      rw [List.flatten_cons, acts _ bound, acts _ bound, apart, Outcome.map_bind]
      cases verdict message with
      | error fault => rfl
      | ok next => exact ih later (by omega) next

/-- A part of the list in front of bytes that append the rest of it to any message. -/
theorem mergeFields_part
    (records : ∀ record ∈ others, ∃ other wireType, other ≠ repeated.field ∧
      IsRecord other wireType record)
    (fits : others.flatten.length < 2 ^ 64) {message : M} {part : Bytes} {front back : List α}
    (acts : Acts merge message part
      (.ok (repeated.withList message (repeated.list message ++ front))))
    (bound : part.length < 2 ^ 64)
    (rest : ∀ next, mergeFields merge next bytes =
      (mergeFields merge next others.flatten).map
        (repeated.withList · (repeated.list next ++ back))) :
    mergeFields merge message (part ++ bytes) = (mergeFields merge message others.flatten).map
      (repeated.withList · (repeated.list message ++ (front ++ back))) := by
  rw [acts bound, Outcome.ok_bind, rest, repeated.mergeFields_others records fits,
    repeated.list_withList, List.append_assoc]
  cases mergeFields merge message others.flatten with
  | error fault => rfl
  | ok next => exact congrArg Except.ok (repeated.withList_withList ..)

/-- The numbers of a repeated field are appended to its list, and the other fields are
those of the other records alone. -/
theorem mergeFields_interleaved (interleaved : Interleaved repeated.field numbers others bytes)
    (fits : bytes.length < 2 ^ 64) (message : M) :
    mergeFields merge message bytes = (mergeFields merge message others.flatten).map
      (repeated.withList · (repeated.list message ++
        (numbers.map UInt64.ofNat).map repeated.convert)) := by
  -- The numbers read so far are in the message. Behind them the other records act on a
  -- message with another list, which they do not depend on.
  induction interleaved generalizing message with
  | nil =>
      rw [List.flatten_nil, mergeFields_nil, List.map_nil, List.map_nil, List.append_nil]
      exact congrArg Except.ok (repeated.withList_list message).symm
  | packed keyForm lengthForm forms rest ih =>
      have others_le := rest.length_others_le
      rw [List.length_append, List.length_append, List.length_append] at fits
      have read := repeated.appends (.inr rfl)
        (repeated_reads_forms repeated.field forms lengthForm (by omega)) message
      rw [List.map_append, List.map_append]
      refine repeated.mergeFields_part rest.exists_isRecord (by omega)
        (acts_of_settles repeated.field repeated.valid keyForm read.settles) ?_ (ih (by omega))
      rw [List.length_append, List.length_append]
      omega
  | single keyForm form rest ih =>
      have others_le := rest.length_others_le
      rw [List.length_append, List.length_append] at fits
      have read := repeated.appends (.inl rfl) (repeated_reads_form repeated.field form) message
      refine repeated.mergeFields_part rest.exists_isRecord (by omega)
        (acts_of_settles repeated.field repeated.valid keyForm read.settles) ?_ (ih (by omega))
      rw [List.length_append]
      omega
  | other elsewhere isRecord rest ih =>
      rw [List.length_append] at fits
      obtain ⟨verdict, acts, apart⟩ := repeated.exists_acts elsewhere isRecord (by omega)
      rw [List.flatten_cons, acts _ (by omega), acts _ (by omega), Outcome.map_bind]
      cases accepted : verdict message with
      | error fault => rfl
      | ok next =>
          rw [Outcome.ok_bind, Outcome.ok_bind, ih (by omega),
            repeated.list_of_verdict apart accepted]

/-- Bytes that hold a list in parts decode to what the other records make up, with the whole
list. -/
theorem decode_interleaved (interleaved : Interleaved repeated.field numbers others bytes)
    (fits : bytes.length < 2 ^ 64) :
    decode bytes = (decode others.flatten).map
      (repeated.withList · ((numbers.map UInt64.ofNat).map repeated.convert)) := by
  have found := repeated.mergeFields_interleaved interleaved fits blank
  rwa [repeated.list_blank, List.nil_append] at found

/-- The whole list, packed in front of the other records, decodes to the same. -/
theorem decode_packed_others (interleaved : Interleaved repeated.field numbers others bytes)
    {word : α → UInt64} (restores : ∀ value, repeated.convert (word value) = value)
    (values : List α)
    (fits : (Encoder.packed repeated.field (values.map word) ++ others.flatten).length < 2 ^ 64) :
    decode (Encoder.packed repeated.field (values.map word) ++ others.flatten) =
      (decode others.flatten).map (repeated.withList · values) := by
  have body := Encoder.length_packedBody_le repeated.field (values.map word)
  have bound := fits
  rw [List.length_append] at bound
  have found := repeated.decode_interleaved
    (interleaved.others_flatten.packed_first repeated.valid (by omega)) fits
  have restored : ((((values.map word).map UInt64.toNat).map UInt64.ofNat).map repeated.convert) =
      values := by
    simp only [List.map_map, Function.comp_def, UInt64.ofNat_toNat, restores, List.map_id']
  rwa [restored] at found

end RepeatedField

end MixedInteger
