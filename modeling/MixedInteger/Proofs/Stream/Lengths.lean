import MixedInteger.Proofs.Stream.Content
import MixedInteger.Proofs.Wire.WordForms

/-! # Numbers in a buffer and lengths on a stream

A number in a buffer and the length of a frame on a stream are read by loops of their own.
On the same bytes both find the same number behind the same bytes, or both give up behind ten
bytes that go on, or both run out of input. What is written for a word is read back as the
word, and its length is the one that is computed (`Varint.coding_agrees`).
-/

namespace MixedInteger

namespace Decoder

/-- Reading digits goes on behind bytes that are marked as being followed by another. -/
theorem readDigits_append {front : Bytes} (marked : ∀ byte ∈ front, Varint.continues byte = true)
    (budget scale total : Nat) (rest : Bytes) :
    ∃ scale' total', readDigits (front.length + budget) scale total (front ++ rest) =
      readDigits budget scale' total' rest := by
  induction front generalizing scale total with
  | nil => exact ⟨scale, total, by simp⟩
  | cons byte front ih =>
      obtain ⟨continues, later⟩ := List.forall_mem_cons.mp marked
      obtain ⟨scale', total', same⟩ :=
        ih later (scale * 128) (total + Varint.digit byte * scale)
      refine ⟨scale', total', ?_⟩
      rw [List.length_cons, Nat.add_right_comm, List.cons_append, readDigits]
      simp only [continues, ↓reduceIte, same]

/-- A number that goes on for too long is given up behind as many bytes as are accepted. -/
theorem varint_run_of_overlong {bytes : Bytes} (overlong : Varint.Overlong bytes) :
    varint.run bytes = ⟨.error .varintOverflow, bytes.drop Varint.maxLength⟩ := by
  obtain ⟨enough, marked⟩ := overlong
  obtain ⟨scale, total, same⟩ :=
    readDigits_append marked 0 1 0 (bytes.drop Varint.maxLength)
  rw [List.length_take_of_le enough, List.take_append_drop] at same
  exact bind_run_error same

/-- A number that breaks off uses up the input. -/
theorem varint_run_of_unfinished {bytes : Bytes} (unfinished : Varint.Unfinished bytes) :
    varint.run bytes = ⟨.error (.truncated .varint), []⟩ := by
  obtain ⟨few, marked⟩ := unfinished
  obtain ⟨budget, whole⟩ := Nat.exists_eq_add_of_lt few
  obtain ⟨scale, total, same⟩ := readDigits_append marked (budget + 1) 1 0 []
  rw [List.append_nil, ← Nat.add_assoc, ← whole] at same
  exact bind_run_error same

end Decoder

namespace Source

/-- Read the digits of a length in a number of rounds, and set the bits of each digit behind
those of the digits before it. -/
def lengthRounds : (rounds index : Nat) → (value : UInt64) → Source →
    Except WireError (Option UInt64) × Source
  | 0, _, _, source => (.error .varintOverflow, source)
  | rounds + 1, index, value, source =>
      match readByte source with
      | (.error error, rest) => (.error error, rest)
      | (.ok none, rest) =>
          (if index = 0 then .ok none else .error (.truncated .frameLength), rest)
      | (.ok (some byte), rest) =>
          let next := value ||| (byte &&& 0x7F).toUInt64 <<< UInt64.ofNat (7 * index)
          if byte &&& 0x80 = 0 then (.ok (some next), rest)
          else lengthRounds rounds (index + 1) next rest

/-- The digits of a length are read as they are added up. -/
theorem lengthRounds_eq {rounds index total : Nat} (fits : index + rounds ≤ Varint.maxLength)
    (below : total < 2 ^ (7 * index)) (source : Source) :
    lengthRounds rounds index (UInt64.ofNat total) source =
      ((readDigits (index = 0) rounds (128 ^ index) total source).1.map (·.map UInt64.ofNat),
        (readDigits (index = 0) rounds (128 ^ index) total source).2) := by
  induction rounds generalizing index total source with
  | zero => rfl
  | succ rounds ih =>
      have small : 7 * index < 64 := by
        rw [Varint.maxLength] at fits
        omega
      rw [lengthRounds, readDigits]
      obtain ⟨found, rest⟩ := readByte source
      cases found with
      | error error => rfl
      | ok byte? =>
          cases byte? with
          | none => by_cases first : index = 0 <;> simp [first, Except.map]
          | some byte =>
              dsimp only
              rw [Varint.or_shiftLeft_digit below small]
              cases goesOn : Varint.continues byte with
              | false =>
                  rw [if_pos ((Varint.and_top_eq_zero_iff byte).mpr goesOn)]
                  rfl
              | true =>
                  have marked : ¬ byte &&& 0x80 = 0 := by
                    rw [Varint.and_top_eq_zero_iff, goesOn]
                    decide
                  rw [if_neg marked, ih (by omega) (Varint.add_digit_lt below byte), Nat.pow_succ]
                  simp only [Nat.add_eq_zero_iff, Nat.one_ne_zero, and_false, decide_false,
                    ↓reduceIte]

theorem readLength_eq_lengthRounds (source : Source) :
    readLength source = lengthRounds Varint.maxLength 0 0 source :=
  (lengthRounds_eq (Nat.le_of_eq (Nat.zero_add _)) Nat.one_pos source).symm

end Source

namespace Varint

/-- What is written for a word is read where a cursor stands, and the cursor ends behind it. -/
theorem runOn_encode (word : UInt64) (front rest : Bytes) :
    Walk.varint.runOn ⟨front ++ (encode word.toNat ++ rest), front.length⟩ =
      .ok (.ok word, ⟨front ++ (encode word.toNat ++ rest),
        front.length + (encode word.toNat).length⟩) := by
  have inside : Cursor.Inside ⟨front ++ (encode word.toNat ++ rest), front.length⟩ := by
    simp [Cursor.Inside]
  have unread : Cursor.unread ⟨front ++ (encode word.toNat ++ rest), front.length⟩ =
      encode word.toNat ++ rest := List.drop_left
  have walked := Walk.tracks_varint _ inside
  rw [unread, Decoder.varint_reads_toNat word rest, Cursor.before_eq_move inside unread] at walked
  exact walked

/-- **Numbers are coded alike everywhere.** Shifting a word and looking at its leading zeros
give the bytes and the length of its number: between one byte and ten. A decoder reads these
bytes as the word, whatever comes before them and behind them, and stops behind them. On any
bytes the decoder of a buffer and the reader of frame lengths, whose stream may deliver the
bytes in any pieces, agree: both find the same word in the same first bytes, or both give up
with an overflow behind ten bytes that go on, or both use up the input, which is the clean end
of a stream exactly when there is no byte at all. -/
theorem coding_agrees :
    (∀ (word : UInt64) (front rest : Bytes),
      put word = encode word.toNat ∧ wordLength word = (encode word.toNat).length ∧
      length word.toNat = (encode word.toNat).length ∧
      1 ≤ (encode word.toNat).length ∧ (encode word.toNat).length ≤ 10 ∧
      Decoder.varint.run (encode word.toNat ++ rest) = ⟨.ok word, rest⟩ ∧
      Walk.varint.runOn ⟨front ++ (encode word.toNat ++ rest), front.length⟩ =
        .ok (.ok word, ⟨front ++ (encode word.toNat ++ rest),
          front.length + (encode word.toNat).length⟩)) ∧
    (∀ source, Source.readLength source = Source.lengthRounds maxLength 0 0 source) ∧
    ∀ (bytes : Bytes) (source : Source), source.Carries bytes .ended →
      (∃ digits left word rest, bytes = digits ++ left ∧
        1 ≤ digits.length ∧ digits.length ≤ 10 ∧
        Decoder.varint.run bytes = ⟨.ok word, left⟩ ∧
        source.readLength = (.ok (some word), rest) ∧ rest.Carries left .ended) ∨
      (Overlong bytes ∧ ∃ rest,
        Decoder.varint.run bytes = ⟨.error .varintOverflow, bytes.drop 10⟩ ∧
        source.readLength = (.error .varintOverflow, rest) ∧
        rest.Carries (bytes.drop 10) .ended) ∨
      (Unfinished bytes ∧ ∃ rest,
        Decoder.varint.run bytes = ⟨.error (.truncated .varint), []⟩ ∧
        source.readLength =
          (if bytes = [] then .ok none else .error (.truncated .frameLength), rest)) := by
  refine ⟨fun word front rest => ?_, Source.readLength_eq_lengthRounds,
    fun bytes source carries => ?_⟩
  · have form := isForm_encode word.toNat_lt
    exact ⟨put_eq_encode word, (wordLength_eq_length word).trans (length_encode _).symm,
      (length_encode _).symm, List.length_pos_iff.mpr (encode_ne_nil _), form.short,
      Decoder.varint_reads_toNat word rest, runOn_encode word front rest⟩
  · rcases exists_isForm_or bytes with ⟨digits, number, left, form, rfl⟩ | overlong | unfinished
    · obtain ⟨rest, read, carried⟩ := carries.readLength_of_isForm form
      exact .inl ⟨digits, left, UInt64.ofNat number, rest, rfl,
        List.length_pos_iff.mpr form.spells.ne_nil, form.short,
        Decoder.varint_reads form left, read, carried⟩
    · obtain ⟨rest, read, carried⟩ := carries.readLength_of_overlong overlong
      exact .inr (.inl ⟨overlong, rest, Decoder.varint_run_of_overlong overlong, read, carried⟩)
    · obtain ⟨rest, read⟩ := carries.readLength_of_unfinished unfinished
      exact .inr (.inr ⟨unfinished, rest, Decoder.varint_run_of_unfinished unfinished, read⟩)

/-- Ten bytes whose digits are more than 64 bits, and a byte behind them. -/
def beyondWord : Bytes := List.replicate 9 0xFF ++ [0x7F, 5]

/-- The bytes in two pieces, with an interruption between them. -/
def beyondWordPiecewise : Source :=
  [.chunk (List.replicate 5 0xFF), .interrupted, .chunk (List.replicate 4 0xFF ++ [0x7F, 5])]

/-- The bits beyond the word are dropped by both. -/
theorem coding_agrees_beyondWord :
    beyondWordPiecewise.Carries beyondWord .ended ∧
      ∃ rest, Decoder.varint.run beyondWord = ⟨.ok 18446744073709551615, [5]⟩ ∧
        beyondWordPiecewise.readLength = (.ok (some 18446744073709551615), rest) ∧
        rest.Carries [5] .ended := by
  have carries : beyondWordPiecewise.Carries beyondWord .ended := by decide
  have decoded : Decoder.varint.run beyondWord = ⟨.ok 18446744073709551615, [5]⟩ := rfl
  rcases coding_agrees.2.2 beyondWord beyondWordPiecewise carries with
    ⟨digits, left, word, rest, -, -, -, found, read, carried⟩ | ⟨-, rest, found, -⟩ |
      ⟨-, rest, found, -⟩
  · cases decoded.symm.trans found
    exact ⟨carries, rest, decoded, read, carried⟩
  · exact nomatch decoded.symm.trans found
  · exact nomatch decoded.symm.trans found

end Varint

end MixedInteger
