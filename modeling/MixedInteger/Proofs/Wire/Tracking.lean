import Mathlib.Data.Nat.Bitwise
import MixedInteger.Proofs.Wire.Cursor
import MixedInteger.Proofs.Wire.Merging

/-! # Walks that keep inside their buffer

A walk tracks a decoder when, from any cursor inside a buffer, it ends without a breach with
what the decoder finds in the unread bytes, in front of the bytes that the decoder leaves.
Walks in turn track decoders in turn, so it is enough to look at the walks that move the
cursor, take a slice or shift a word.
-/

namespace MixedInteger

namespace Varint

/-- Setting the top bit of a byte aside leaves its digit. -/
theorem toNat_and_low (byte : UInt8) : (byte &&& 0x7F).toNat = digit byte := by
  rw [UInt8.toNat_and]
  exact Nat.and_two_pow_sub_one_eq_mod byte.toNat 7

/-- The top bit of a byte says whether another byte follows. -/
theorem and_top_eq_zero_iff (byte : UInt8) : byte &&& 0x80 = 0 ↔ continues byte = false := by
  have bound := byte.toNat_lt
  have top : (byte &&& 0x80).toNat = (byte.toNat.testBit 7).toNat * 2 ^ 7 := by
    rw [UInt8.toNat_and]
    exact Nat.and_two_pow byte.toNat 7
  rw [← UInt8.toNat_inj, top, continues, decide_eq_false_iff_not, Nat.testBit_eq_decide_div_mod_eq]
  by_cases large : byte.toNat / 2 ^ 7 % 2 = 1
  · simp only [large, decide_true, Bool.toNat_true, UInt8.reduceToNat]
    omega
  · simp only [large, decide_false, Bool.toNat_false, UInt8.reduceToNat]
    omega

/-- A digit that is set behind the bits of a number is added at its power of 128. -/
theorem or_shiftLeft_digit {total index : Nat} (below : total < 2 ^ (7 * index))
    (small : 7 * index < 64) (byte : UInt8) :
    UInt64.ofNat total ||| (byte &&& 0x7F).toUInt64 <<< UInt64.ofNat (7 * index) =
      UInt64.ofNat (total + digit byte * 128 ^ index) := by
  have weight : 128 ^ index = 2 ^ (7 * index) := (Nat.pow_mul 2 7 index).symm
  have amount : (UInt64.ofNat (7 * index)).toNat % 64 = 7 * index := by
    rw [UInt64.toNat_ofNat']
    omega
  apply UInt64.toNat_inj.mp
  rw [UInt64.toNat_or, UInt64.toNat_shiftLeft, amount, UInt64.toNat_ofNat', UInt64.toNat_ofNat',
    UInt8.toNat_toUInt64, toNat_and_low, ← Nat.or_mod_two_pow, Nat.or_comm,
    ← Nat.shiftLeft_add_eq_or_of_lt below, Nat.shiftLeft_eq, weight, Nat.add_comm]

/-- A further digit adds seven bits. -/
theorem add_digit_lt {total index : Nat} (below : total < 2 ^ (7 * index)) (byte : UInt8) :
    total + digit byte * 128 ^ index < 2 ^ (7 * (index + 1)) := by
  have weight : 128 ^ index = 2 ^ (7 * index) := (Nat.pow_mul 2 7 index).symm
  have small : digit byte ≤ 127 := Nat.le_of_lt_succ (Nat.mod_lt _ (by decide))
  have most := Nat.mul_le_mul_right (2 ^ (7 * index)) small
  rw [weight, Nat.mul_succ, Nat.pow_add]
  omega

end Varint

namespace Cursor

variable {cursor : Cursor} {rest : Bytes}

/-- The cursor in front of the bytes that are left of its buffer. -/
def before (cursor : Cursor) (rest : Bytes) : Cursor :=
  { cursor with position := cursor.buffer.length - rest.length }

/-- The cursor in front of what is left is inside its buffer. -/
theorem inside_before : (cursor.before rest).Inside := Nat.sub_le _ _

/-- There are as many unread bytes as the buffer has behind the position. -/
theorem length_unread : cursor.unread.length = cursor.buffer.length - cursor.position :=
  List.length_drop

/-- A cursor is determined by what it has yet to read. -/
theorem before_unread (inside : cursor.Inside) : cursor.before cursor.unread = cursor := by
  unfold Inside at inside
  have position : cursor.buffer.length - cursor.unread.length = cursor.position := by
    rw [length_unread]
    omega
  rw [before, position]

/-- What is left in front of the rest of the unread bytes is that rest. -/
theorem unread_before (suffix : rest <:+ cursor.unread) : (cursor.before rest).unread = rest :=
  (List.suffix_iff_eq_drop.mp (suffix.trans (List.drop_suffix _ _))).symm

/-- A cursor that has moved stands in front of the bytes that it has not moved over. -/
theorem move_eq_before {count : Nat} (inside : (cursor.move count).Inside) :
    cursor.move count = cursor.before (cursor.unread.drop count) := by
  have same : (cursor.move count).unread = cursor.unread.drop count :=
    (List.drop_drop (l := cursor.buffer) ..).symm
  rw [← same]
  exact (before_unread inside).symm

/-- A cursor may move over as many bytes as there are unread. -/
theorem inside_move {count : Nat} (inside : cursor.Inside) (enough : count ≤ cursor.unread.length) :
    (cursor.move count).Inside := by
  rw [length_unread] at enough
  unfold Inside at inside
  change cursor.position + count ≤ cursor.buffer.length
  omega

/-- A cursor that stands before the rest has moved over what was in front of it. -/
theorem before_eq_move {front : Bytes} (inside : cursor.Inside)
    (unread : cursor.unread = front ++ rest) : cursor.before rest = cursor.move front.length := by
  have enough : front.length ≤ cursor.unread.length := by
    rw [unread, List.length_append]
    exact Nat.le_add_right _ _
  rw [move_eq_before (inside_move inside enough), unread, List.drop_left]

/-- The cursor has moved by the bytes that are no longer left. -/
theorem position_before (inside : cursor.Inside) (suffix : rest <:+ cursor.unread) :
    (cursor.before rest).position = cursor.position + (cursor.unread.length - rest.length) := by
  have shorter := suffix.length_le
  unfold Inside at inside
  rw [length_unread] at shorter ⊢
  change cursor.buffer.length - rest.length = _
  omega

end Cursor

namespace Walk

variable {α β M : Type} {cursor : Cursor}

/-- A walk goes on where its first part ended. -/
theorem bind_runOn {first : Walk α} {next : α → Walk β} {value : α} {after : Cursor}
    (found : first.runOn cursor = .ok (.ok value, after)) :
    (first >>= next).runOn cursor = (next value).runOn after := by
  change continueWith (first.runOn cursor) next = _
  rw [found]
  rfl

/-- Whether a walk from inside a buffer stays inside and finds what a decoder finds in the
bytes that are left, without a breach. -/
def Tracks (walk : Walk α) (decoder : Decoder α) : Prop :=
  ∀ cursor : Cursor, cursor.Inside → walk.runOn cursor =
    .ok ((decoder.run cursor.unread).result, cursor.before (decoder.run cursor.unread).rest)

/-- A walk that only answers tracks the decoder that only answers. -/
theorem tracks_pure (value : α) : (pure value : Walk α).Tracks (pure value) := fun _ inside =>
  congrArg (fun after => Except.ok (Except.ok value, after)) (Cursor.before_unread inside).symm

/-- A walk that fails tracks the decoder that fails. -/
theorem tracks_fail (fault : WireError) : (fail fault : Walk α).Tracks (Decoder.fail fault) :=
  fun _ inside =>
    congrArg (fun after => Except.ok (Except.error fault, after)) (Cursor.before_unread inside).symm

/-- A walk tracks every decoder that runs like the one it tracks. -/
theorem Tracks.congr {walk : Walk α} {decoder other : Decoder α} (tracks : walk.Tracks decoder)
    (same : ∀ input, decoder.run input = other.run input) : walk.Tracks other := by
  intro cursor inside
  rw [← same]
  exact tracks cursor inside

/-- Two walks in turn track two decoders in turn. The second one may rely on its value having
been found. -/
theorem Tracks.bind_found {first : Walk α} {next : α → Walk β} {decoder : Decoder α}
    {following : α → Decoder β} (firstTracks : first.Tracks decoder)
    (nextTracks : ∀ input value rest, decoder.run input = ⟨.ok value, rest⟩ →
      (next value).Tracks (following value)) :
    (first >>= next).Tracks (decoder >>= following) := by
  intro cursor inside
  have walked := firstTracks cursor inside
  change continueWith (first.runOn cursor) next =
    .ok ((Decoder.continueWith (decoder.run cursor.unread) following).result,
      cursor.before (Decoder.continueWith (decoder.run cursor.unread) following).rest)
  rw [walked]
  cases reading : decoder.run cursor.unread with
  | mk result rest =>
      cases result with
      | error fault => rfl
      | ok value =>
          have found := nextTracks _ value rest reading (cursor.before rest) Cursor.inside_before
          rw [Cursor.unread_before (Decoder.suffix_of_run reading)] at found
          exact found

/-- Walks in a row track decoders in a row. -/
theorem Tracks.bind {first : Walk α} {next : α → Walk β} {decoder : Decoder α}
    {following : α → Decoder β} (firstTracks : first.Tracks decoder)
    (nextTracks : ∀ value, (next value).Tracks (following value)) :
    (first >>= next).Tracks (decoder >>= following) :=
  firstTracks.bind_found fun _ value _ _ => nextTracks value

/-- An answer may be converted on both sides. -/
theorem Tracks.map {walk : Walk α} {decoder : Decoder α} (tracks : walk.Tracks decoder)
    (f : α → β) :
    (walk >>= fun found => pure (f found)).Tracks (decoder >>= fun found => pure (f found)) :=
  tracks.bind fun value => tracks_pure (f value)

/-- Asking whether anything is unread moves nothing. -/
theorem isEmpty_runOn : isEmpty.runOn cursor = .ok (.ok cursor.unread.isEmpty, cursor) := by
  have same : decide (cursor.buffer.length ≤ cursor.position) = cursor.unread.isEmpty := by
    rw [Bool.eq_iff_iff, decide_eq_true_iff, List.isEmpty_iff, Cursor.unread,
      List.drop_eq_nil_iff]
  rw [← same]
  rfl

/-- Looking at the next byte moves nothing. -/
theorem byte?_runOn : byte?.runOn cursor = .ok (.ok cursor.unread.head?, cursor) := by
  rw [Cursor.unread, List.head?_drop]
  rfl

/-- A walk may advance over bytes that are there. -/
theorem advance_runOn {count : Nat} (inside : cursor.Inside)
    (enough : count ≤ cursor.unread.length) :
    (advance count).runOn cursor = .ok (.ok (), cursor.before (cursor.unread.drop count)) := by
  have moved := Cursor.inside_move inside enough
  rw [← Cursor.move_eq_before moved]
  exact if_pos moved

/-- A slice of bytes that are there is handed out, and the cursor stands behind it. -/
theorem split_runOn {count : Nat} (inside : cursor.Inside)
    (enough : count ≤ cursor.unread.length) :
    (split count).runOn cursor =
      .ok (.ok (cursor.unread.take count), cursor.before (cursor.unread.drop count)) := by
  have taken : (slice count).runOn cursor = .ok (.ok (cursor.unread.take count), cursor) :=
    if_pos (Cursor.inside_move inside enough)
  rw [split, bind_runOn taken, bind_runOn (advance_runOn inside enough)]
  rfl

/-- A shift by less than the width of a word is no breach. -/
theorem shiftLeft_runOn {word : UInt64} {amount : Nat} (small : amount < 64) :
    (shiftLeft word amount).runOn cursor = .ok (.ok (word <<< UInt64.ofNat amount), cursor) := by
  rw [shiftLeft, if_pos small]
  rfl

/-- The digits of a number are read as they are added up. -/
theorem digits_runOn {rounds index total : Nat} (fits : index + rounds ≤ Varint.maxLength)
    (below : total < 2 ^ (7 * index)) (inside : cursor.Inside) :
    (digits rounds index (UInt64.ofNat total)).runOn cursor =
      .ok ((Decoder.readDigits rounds (128 ^ index) total cursor.unread).result.map UInt64.ofNat,
        cursor.before (Decoder.readDigits rounds (128 ^ index) total cursor.unread).rest) := by
  induction rounds generalizing cursor index total with
  | zero => exact tracks_fail .varintOverflow cursor inside
  | succ rounds ih =>
      rw [digits, bind_runOn byte?_runOn]
      cases unread : cursor.unread with
      | nil =>
          have failed := tracks_fail (α := UInt64) (.truncated .varint) cursor inside
          rw [unread] at failed
          exact failed
      | cons byte rest =>
          have small : 7 * index < 64 := by
            rw [Varint.maxLength] at fits
            omega
          have enough : 1 ≤ cursor.unread.length := unread ▸ Nat.succ_pos _
          have advanced : (advance 1).runOn cursor = .ok (.ok (), cursor.before rest) := by
            have found := advance_runOn inside enough
            rw [unread] at found
            exact found
          dsimp only [List.head?_cons]
          have suffix : rest <:+ cursor.unread := unread ▸ List.suffix_cons byte rest
          have sum_lt := Varint.add_digit_lt below byte
          rw [bind_runOn advanced, bind_runOn (shiftLeft_runOn small),
            Varint.or_shiftLeft_digit below small, Decoder.readDigits]
          split
          · rename_i ends
            rw [Varint.and_top_eq_zero_iff] at ends
            rw [ends]
            rfl
          · rename_i goesOn
            rw [Varint.and_top_eq_zero_iff, Bool.not_eq_false] at goesOn
            have behind : (cursor.before rest).Inside := Cursor.inside_before
            have walked := ih (by omega) sum_lt behind
            rw [Cursor.unread_before suffix, Nat.pow_succ] at walked
            rw [goesOn]
            exact walked

/-- The walk over a number of variable length tracks its decoder. -/
theorem tracks_varint : varint.Tracks Decoder.varint := by
  intro cursor inside
  have walked := digits_runOn (Nat.le_of_eq (Nat.zero_add Varint.maxLength)) Nat.one_pos inside
  rw [Nat.pow_zero] at walked
  refine walked.trans ?_
  change _ = Except.ok ((Decoder.continueWith (Decoder.readDigits _ 1 0 cursor.unread) _).result,
    cursor.before (Decoder.continueWith (Decoder.readDigits _ 1 0 cursor.unread) _).rest)
  obtain ⟨result, rest⟩ := Decoder.readDigits Varint.maxLength 1 0 cursor.unread
  cases result <;> rfl

/-- The walk over a field number and the bits of its wire type tracks its decoder. -/
theorem tracks_fieldKey : fieldKey.Tracks Decoder.fieldKey := by
  refine tracks_varint.bind fun number => ?_
  have field : (number >>> 3).toUInt32.toNat = number.toNat / 8 % UInt32.size := by
    rw [UInt64.toNat_toUInt32, UInt64.toNat_shiftRight, Nat.shiftRight_eq_div_pow]
    rfl
  have bits : (number &&& 7).toUInt8.toNat = number.toNat % 8 := by
    rw [UInt64.toNat_toUInt8, UInt64.toNat_and]
    have low : number.toNat &&& 7 = number.toNat % 8 := Nat.and_two_pow_sub_one_eq_mod _ 3
    change (number.toNat &&& 7) % 2 ^ 8 = _
    omega
  dsimp only
  rw [← field, ← bits]
  split
  · exact tracks_fail _
  · cases WireType.ofBits? (number &&& 7).toUInt8.toNat with
    | none => exact tracks_fail _
    | some wireType => exact tracks_pure _

/-- The walk over the key of a field tracks its decoder. -/
theorem tracks_key : key.Tracks Decoder.key := by
  intro cursor inside
  rw [key, bind_runOn isEmpty_runOn]
  cases unread : cursor.unread with
  | nil =>
      have ended := tracks_pure (none : Option (Nat × WireType)) cursor inside
      rw [unread] at ended
      exact ended
  | cons byte rest =>
      have walked := tracks_fieldKey.map some cursor inside
      rw [unread] at walked
      exact walked

/-- A number of bytes is taken off if there are as many. -/
theorem tracks_split (count : Nat) (fault : Nat → WireError) :
    (remaining >>= fun available =>
      if available < count then fail (fault available) else split count).Tracks
      (Decoder.remaining >>= fun available =>
        if available < count then Decoder.fail (fault available) else Decoder.split count) := by
  intro cursor inside
  have counted : remaining.runOn cursor = .ok (.ok cursor.unread.length, cursor) := by
    rw [Cursor.length_unread]
    exact if_pos inside
  rw [bind_runOn counted]
  change _ = Except.ok (((ite _ _ _ : Decoder Bytes).run cursor.unread).result,
    cursor.before ((ite _ _ _ : Decoder Bytes).run cursor.unread).rest)
  by_cases short : cursor.unread.length < count
  · rw [if_pos short, if_pos short]
    exact tracks_fail _ cursor inside
  · rw [if_neg short, if_neg short]
    exact split_runOn inside (Nat.not_lt.mp short)

/-- Taking a given number of bytes tracks its decoder. -/
theorem tracks_take (count : Nat) (part : Part) :
    (take count part).Tracks (Decoder.take count part) :=
  tracks_split count fun _ => .truncated part

/-- The walk over a length and its bytes tracks its decoder. -/
theorem tracks_lengthDelimited (field : Nat) :
    (lengthDelimited field).Tracks (Decoder.lengthDelimited field) :=
  tracks_varint.bind fun length => tracks_split length.toNat fun available =>
    .lengthOutOfBounds field length.toNat available

/-- The walk over eight bytes tracks its decoder. -/
theorem tracks_fixed64 : fixed64.Tracks Decoder.fixed64 := by
  refine (tracks_take 8 .fixed64).bind_found fun input bytes rest found => ?_
  rw [if_pos (Decoder.length_of_take found)]
  exact tracks_pure _

/-- The walk over a text tracks its decoder. -/
theorem tracks_string (field : Nat) : (string field).Tracks (Decoder.string field) := by
  refine (tracks_lengthDelimited field).bind fun bytes => ?_
  cases Decoder.text? bytes with
  | none => exact tracks_fail _
  | some text => exact tracks_pure text

/-- The walk over a number that is cut to 32 bits tracks its decoder. -/
theorem tracks_uint32 : uint32.Tracks Decoder.uint32 := tracks_varint.map UInt64.toUInt32

/-- The walk that skips a field of any wire type tracks its decoder. -/
theorem tracks_skip (field : Nat) (wireType : WireType) :
    (skip field wireType).Tracks (Decoder.skip field wireType) := by
  cases wireType with
  | varint => exact tracks_varint.map fun _ => ()
  | fixed64 => exact (tracks_take 8 .fixed64).map fun _ => ()
  | fixed32 => exact (tracks_take 4 .fixed32).map fun _ => ()
  | lengthDelimited => exact (tracks_lengthDelimited field).map fun _ => ()

/-- A walk over a body of its own gives the verdict on the body. -/
theorem tracks_within {walk : Walk α} {body : Bytes} {verdict : Except WireError α}
    (found : walk.run body = .ok verdict) :
    (within body walk).Tracks (Decoder.ofExcept verdict) := by
  intro cursor inside
  change (walk.run body).map _ = _
  rw [found]
  cases verdict with
  | error fault => exact tracks_fail fault cursor inside
  | ok value => exact tracks_pure value cursor inside

end Walk

end MixedInteger
