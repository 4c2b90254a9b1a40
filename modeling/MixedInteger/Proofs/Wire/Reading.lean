import Mathlib.Data.List.Forall2
import MixedInteger.Proofs.Wire.Varint
import MixedInteger.Wire.Decoder
import MixedInteger.Wire.Encoder

/-! # Reading what was written

A decoder reads bytes as a value when it finds the value at the front of every
input that starts with them and leaves the rest. Each kind of field value is
read back from its encoding.
-/

namespace MixedInteger

/-- The code of a wire type fits into three bits. -/
theorem WireType.bits_lt (wireType : WireType) : wireType.bits < 8 := by
  cases wireType <;> decide

/-- The code of a wire type leads back to it. -/
theorem WireType.ofBits?_bits (wireType : WireType) :
    ofBits? wireType.bits = some wireType := by
  cases wireType <;> rfl

/-- A code leads to the wire type that has it, and to no other. -/
theorem WireType.ofBits?_eq_some_iff {bits : Nat} {wireType : WireType} :
    ofBits? bits = some wireType ↔ bits = wireType.bits := by
  refine ⟨fun found => ?_, fun same => same ▸ wireType.ofBits?_bits⟩
  unfold ofBits? at found
  split at found <;> cases found <;> rfl

namespace Decoder

variable {α β : Type}

/-- Whether a decoder finds a value in certain bytes and reads no further. -/
def Reads (decoder : Decoder α) (bytes : Bytes) (value : α) : Prop :=
  ∀ rest, decoder.run (bytes ++ rest) = ⟨.ok value, rest⟩

/-- A decoder that only answers reads no bytes. -/
theorem reads_pure (value : α) : (pure value : Decoder α).Reads [] value := fun _ => rfl

/-- A decoder leaves an end of its input. -/
theorem suffix_of_run {decoder : Decoder α} {input rest : Bytes} {result : Except WireError α}
    (found : decoder.run input = ⟨result, rest⟩) : rest <:+ input := by
  have suffix := decoder.rest_suffix input
  rwa [found] at suffix

/-- Two decoders in turn go on behind what the first has read. -/
theorem bind_run {first : Decoder α} {next : α → Decoder β} {input rest : Bytes} {a : α}
    (found : first.run input = ⟨.ok a, rest⟩) :
    (first >>= next).run input = (next a).run rest := by
  change continueWith (first.run input) next = _
  rw [found]
  rfl

/-- Two decoders in turn end where the first fails. -/
theorem bind_run_error {first : Decoder α} {next : α → Decoder β} {input rest : Bytes}
    {fault : WireError} (failed : first.run input = ⟨.error fault, rest⟩) :
    (first >>= next).run input = ⟨.error fault, rest⟩ := by
  change continueWith (first.run input) next = _
  rw [failed]
  rfl

/-- Two decoders in turn find what the second finds behind the first. -/
theorem bind_run_eq_ok_iff {first : Decoder α} {next : α → Decoder β} {input rest : Bytes}
    {b : β} :
    (first >>= next).run input = ⟨.ok b, rest⟩ ↔
      ∃ a middle, first.run input = ⟨.ok a, middle⟩ ∧ (next a).run middle = ⟨.ok b, rest⟩ := by
  refine ⟨fun found => ?_, fun ⟨_, _, firstFound, found⟩ => (bind_run firstFound).trans found⟩
  cases reading : first.run input with
  | mk result middle =>
      cases result with
      | error fault => exact nomatch (bind_run_error reading).symm.trans found
      | ok a => exact ⟨a, middle, rfl, (bind_run reading).symm.trans found⟩

/-- Two decoders in turn read the bytes of both. -/
theorem Reads.bind {first : Decoder α} {next : α → Decoder β} {front back : Bytes} {a : α} {b : β}
    (firstReads : first.Reads front a) (nextReads : (next a).Reads back b) :
    (first >>= next).Reads (front ++ back) b := by
  intro rest
  rw [List.append_assoc, bind_run (firstReads _)]
  exact nextReads rest

/-- The second of two decoders may read nothing. -/
theorem Reads.bind_nil {first : Decoder α} {next : α → Decoder β} {bytes : Bytes} {a : α} {b : β}
    (firstReads : first.Reads bytes a) (nextReads : (next a).Reads [] b) :
    (first >>= next).Reads bytes b := by
  have both := firstReads.bind nextReads
  rwa [List.append_nil] at both

/-- A value that is computed from what was read takes no more bytes. -/
theorem Reads.map {decoder : Decoder α} {bytes : Bytes} {value : α}
    (reads : decoder.Reads bytes value) (f : α → β) :
    (decoder >>= fun found => pure (f found)).Reads bytes (f value) :=
  reads.bind_nil (reads_pure (f value))

/-- Whether a decoder reads certain bytes and no further, with a verdict that does not
depend on what follows them. -/
def Settles (decoder : Decoder α) (bytes : Bytes) (verdict : Except WireError α) : Prop :=
  ∀ rest, decoder.run (bytes ++ rest) = ⟨verdict, rest⟩

/-- A decoder that finds a value settles on it. -/
theorem Reads.settles {decoder : Decoder α} {bytes : Bytes} {value : α}
    (reads : decoder.Reads bytes value) : decoder.Settles bytes (.ok value) := reads

/-- A verdict that is known beforehand is settled without reading. -/
theorem settles_ofExcept (verdict : Except WireError α) : (ofExcept verdict).Settles [] verdict := by
  cases verdict <;> exact fun _ => rfl

/-- The verdict on what is left of the bytes is that on all of them. -/
theorem Reads.bind_settles {first : Decoder α} {next : α → Decoder β} {bytes : Bytes} {a : α}
    {verdict : Except WireError β} (firstReads : first.Reads bytes a)
    (nextSettles : (next a).Settles [] verdict) : (first >>= next).Settles bytes verdict := by
  intro rest
  rw [bind_run (firstReads rest)]
  exact nextSettles rest

/-- A verdict may be converted. -/
theorem Settles.map {decoder : Decoder α} {bytes : Bytes} {verdict : Except WireError α}
    (settles : decoder.Settles bytes verdict) (f : α → β) :
    (decoder >>= fun found => pure (f found)).Settles bytes (verdict.map f) := by
  intro rest
  cases verdict with
  | error fault => exact bind_run_error (settles rest)
  | ok found => exact bind_run (settles rest)

/-- The digits of a number add up to the number. -/
theorem readDigits_of_spells {bytes : Bytes} {number : Nat} (spells : Varint.Spells bytes number)
    {budget : Nat} (enough : bytes.length ≤ budget) (scale total : Nat) (rest : Bytes) :
    readDigits budget scale total (bytes ++ rest) = ⟨.ok (total + number * scale), rest⟩ := by
  induction spells generalizing budget scale total with
  | last ends =>
      obtain ⟨budget, rfl⟩ := Nat.exists_eq_succ_of_ne_zero (Nat.ne_of_gt enough)
      rw [List.singleton_append, readDigits]
      simp only [ends, Bool.false_eq_true, ↓reduceIte]
  | @next byte bytes number goesOn _ ih =>
      obtain ⟨budget, rfl⟩ :=
        Nat.exists_eq_succ_of_ne_zero (Nat.ne_of_gt (Nat.lt_of_lt_of_le (Nat.succ_pos _) enough))
      rw [List.cons_append, readDigits]
      simp only [goesOn, ↓reduceIte]
      rw [ih (Nat.le_of_succ_le_succ enough)]
      have sum : Varint.digit byte * scale + number * (scale * 128) =
          (Varint.digit byte + 128 * number) * scale := by ring
      rw [Nat.add_assoc, sum]

/-- The digits of a form are read as its number. -/
theorem digits_reads {bytes : Bytes} {number : Nat} (form : Varint.IsForm bytes number) :
    digits.Reads bytes number := by
  intro rest
  have found := readDigits_of_spells form.spells form.short 1 0 rest
  rwa [Nat.zero_add, Nat.mul_one] at found

/-- Digits that were read are the digits of a number. -/
theorem spells_of_readDigits {budget scale total : Nat} {input rest : Bytes} {sum : Nat}
    (found : readDigits budget scale total input = ⟨.ok sum, rest⟩) :
    ∃ bytes number, input = bytes ++ rest ∧ Varint.Spells bytes number ∧
      bytes.length ≤ budget ∧ sum = total + number * scale := by
  induction budget generalizing scale total input with
  | zero => cases found
  | succ budget ih =>
      cases input with
      | nil => cases found
      | cons byte input =>
          rw [readDigits] at found
          split at found
          · rename_i goesOn
            obtain ⟨bytes, number, rfl, higher, short, rfl⟩ := ih found
            refine ⟨byte :: bytes, _, rfl, .next goesOn higher, Nat.succ_le_succ short, ?_⟩
            ring
          · rename_i ends
            cases found
            exact ⟨[byte], _, rfl, .last (Bool.eq_false_of_not_eq_true ends),
              Nat.succ_le_succ (Nat.zero_le _), rfl⟩

/-- Digits are read exactly from the forms of a number. -/
theorem digits_run_iff {input rest : Bytes} {number : Nat} :
    digits.run input = ⟨.ok number, rest⟩ ↔
      ∃ bytes, input = bytes ++ rest ∧ Varint.IsForm bytes number := by
  constructor
  · intro found
    obtain ⟨bytes, number, same, spells, short, rfl⟩ := spells_of_readDigits found
    rw [Nat.zero_add, Nat.mul_one]
    exact ⟨bytes, same, spells, short⟩
  · rintro ⟨bytes, rfl, form⟩
    exact digits_reads form rest

/-- A number is read in any form. -/
theorem varint_reads {bytes : Bytes} {number : Nat} (form : Varint.IsForm bytes number) :
    varint.Reads bytes (UInt64.ofNat number) :=
  (digits_reads form).map UInt64.ofNat

/-- The encoding of a word is read as the word. -/
theorem varint_reads_toNat (word : UInt64) : varint.Reads (Varint.encode word.toNat) word := by
  have reads := varint_reads (Varint.isForm_encode word.toNat_lt)
  rwa [UInt64.ofNat_toNat] at reads

/-- The encoding of a 32-bit word is read as that word. -/
theorem uint32_reads (value : UInt32) :
    uint32.Reads (Varint.encode value.toUInt64.toNat) value := by
  have reads := (varint_reads_toNat value.toUInt64).map UInt64.toUInt32
  rw [UInt32.toUInt32_toUInt64] at reads
  exact reads

/-- A word is read exactly from the forms of the numbers that have its low bits. -/
theorem varint_run_iff {input rest : Bytes} {word : UInt64} :
    varint.run input = ⟨.ok word, rest⟩ ↔
      ∃ bytes number, input = bytes ++ rest ∧ Varint.IsForm bytes number ∧
        UInt64.ofNat number = word := by
  constructor
  · intro found
    obtain ⟨number, middle, read, same⟩ := bind_run_eq_ok_iff.mp found
    cases same
    obtain ⟨bytes, split, form⟩ := digits_run_iff.mp read
    exact ⟨bytes, number, split, form, rfl⟩
  · rintro ⟨bytes, number, rfl, form, rfl⟩
    exact varint_reads form rest

/-- A field key is read exactly from the words that agree with its number in the lowest
35 bits: the number of the field is cut to 32 bits. -/
theorem fieldKey_run_iff {input rest : Bytes} {field : Nat} {wireType : WireType} :
    fieldKey.run input = ⟨.ok (field, wireType), rest⟩ ↔
      0 < field ∧ ∃ word, varint.run input = ⟨.ok word, rest⟩ ∧
        word.toNat % 2 ^ 35 = field * 8 + wireType.bits := by
  have bits := wireType.bits_lt
  rw [fieldKey, bind_run_eq_ok_iff]
  constructor
  · rintro ⟨word, middle, read, found⟩
    dsimp only at found
    split at found
    · cases found
    · rename_i positive
      split at found
      · rename_i same
        cases found
        rw [WireType.ofBits?_eq_some_iff] at same
        rw [UInt32.size] at positive ⊢
        exact ⟨Nat.pos_of_ne_zero positive, word, read, by omega⟩
      · cases found
  · rintro ⟨positive, word, read, agrees⟩
    have quotient : word.toNat / 8 % UInt32.size = field := by
      rw [UInt32.size]
      omega
    have remainder : word.toNat % 8 = wireType.bits := by omega
    refine ⟨word, rest, read, ?_⟩
    dsimp only
    rw [quotient, remainder, wireType.ofBits?_bits, if_neg (Nat.ne_of_gt positive)]
    rfl

/-- A field key is read in any form of its number. -/
theorem fieldKey_reads {field : Nat} (positive : 0 < field) (small : field < 2 ^ 32)
    (wireType : WireType) {bytes : Bytes}
    (form : Varint.IsForm bytes (field * 8 + wireType.bits)) :
    fieldKey.Reads bytes (field, wireType) := by
  have bits := wireType.bits_lt
  refine fun rest => fieldKey_run_iff.mpr ⟨positive, _, varint_reads form rest, ?_⟩
  rw [UInt64.toNat_ofNat', Nat.mod_mod_of_dvd _ (by decide), Nat.mod_eq_of_lt (by omega)]

/-- A key is found exactly where there is one at the front of the input. -/
theorem key_run_iff {input rest : Bytes} {found : Nat × WireType} :
    key.run input = ⟨.ok (some found), rest⟩ ↔ fieldKey.run input = ⟨.ok found, rest⟩ := by
  cases input with
  | nil => exact ⟨(nomatch ·), (nomatch ·)⟩
  | cons byte input =>
      change (fieldKey >>= fun found => pure (some found)).run (byte :: input) = _ ↔ _
      refine bind_run_eq_ok_iff.trans ⟨?_, fun read => ⟨found, rest, read, rfl⟩⟩
      rintro ⟨_, _, read, same⟩
      cases same
      exact read

/-- As many bytes as are asked for are handed out. -/
theorem split_reads (bytes : Bytes) : (split bytes.length).Reads bytes bytes := by
  intro rest
  change Reading.mk (.ok ((bytes ++ rest).take bytes.length))
    ((bytes ++ rest).drop bytes.length) = _
  rw [List.take_left, List.drop_left]

/-- As many bytes as are asked for are taken if they are there. -/
theorem take_reads (bytes : Bytes) (part : Part) : (take bytes.length part).Reads bytes bytes := by
  intro rest
  have enough : ¬ (bytes ++ rest).length < bytes.length := by
    rw [List.length_append]
    omega
  change (if (bytes ++ rest).length < bytes.length then fail (.truncated part)
    else split bytes.length).run (bytes ++ rest) = _
  rw [if_neg enough]
  exact split_reads bytes rest

/-- What is taken has the length that was asked for. -/
theorem length_of_take {count : Nat} {part : Part} {input bytes rest : Bytes}
    (found : (take count part).run input = ⟨.ok bytes, rest⟩) : bytes.length = count := by
  obtain ⟨available, middle, counted, taken⟩ := bind_run_eq_ok_iff.mp found
  cases counted
  split at taken
  · cases taken
  · rename_i enough
    cases taken
    rw [List.length_take]
    omega

/-- The digits of a word in base 256 make up the word. -/
theorem foldr_digits (value count : Nat) :
    ((List.range count).map fun position => UInt8.ofNat (value / 256 ^ position)).foldr
      (fun byte high => byte.toNat + 256 * high) 0 = value % 256 ^ count := by
  induction count generalizing value with
  | zero => simp [Nat.mod_one]
  | succ count ih =>
      rw [List.range_succ_eq_map, List.map_cons, List.foldr_cons, List.map_map]
      have shifted : ((fun position => UInt8.ofNat (value / 256 ^ position)) ∘ Nat.succ) =
          fun position => UInt8.ofNat (value / 256 / 256 ^ position) := by
        funext position
        rw [Function.comp_apply, Nat.pow_succ', Nat.div_div_eq_div_mul]
      rw [shifted, ih, UInt8.toNat_ofNat', Nat.pow_zero, Nat.div_one,
        Nat.pow_succ' (m := 256), Nat.mod_mul]

/-- Eight bytes in little-endian order give back their word. -/
theorem word_littleEndian (value : UInt64) : word (Encoder.littleEndian value) = value := by
  have bytes : (256 : Nat) ^ 8 = 2 ^ 64 := by decide
  have shifts (position : Nat) : value.toNat >>> (8 * position) = value.toNat / 256 ^ position := by
    rw [Nat.shiftRight_eq_div_pow, Nat.pow_mul]
  simp only [word, Encoder.littleEndian, shifts]
  rw [foldr_digits, bytes, Nat.mod_eq_of_lt value.toNat_lt, UInt64.ofNat_toNat]

/-- A word is read back bit for bit. -/
theorem fixed64_reads (value : UInt64) : fixed64.Reads (Encoder.littleEndian value) value := by
  have reads := (take_reads (Encoder.littleEndian value) .fixed64).map word
  rw [word_littleEndian] at reads
  exact reads

/-- A body is read behind any form of its length. -/
theorem lengthDelimited_reads (field : Nat) {length body : Bytes}
    (form : Varint.IsForm length body.length) (bound : body.length < 2 ^ 64) :
    (lengthDelimited field).Reads (length ++ body) body := by
  have number : (UInt64.ofNat body.length).toNat = body.length := by
    rw [UInt64.toNat_ofNat', Nat.mod_eq_of_lt bound]
  refine (varint_reads form).bind fun rest => ?_
  have enough : ¬ (body ++ rest).length < body.length := by
    rw [List.length_append]
    omega
  change (if (body ++ rest).length < (UInt64.ofNat body.length).toNat then _
    else split (UInt64.ofNat body.length).toNat).run (body ++ rest) = _
  rw [number, if_neg enough]
  exact split_reads body rest

/-- A body was read behind its length. -/
theorem exists_length_of_lengthDelimited {field : Nat} {input body rest : Bytes}
    (found : (lengthDelimited field).run input = ⟨.ok body, rest⟩) :
    ∃ length, input = length ++ body ++ rest ∧ body.length < 2 ^ 64 ∧
      varint.run input = ⟨.ok (UInt64.ofNat body.length), body ++ rest⟩ := by
  obtain ⟨number, middle, read, taken⟩ := bind_run_eq_ok_iff.mp found
  obtain ⟨available, _, counted, taken⟩ := bind_run_eq_ok_iff.mp taken
  cases counted
  split at taken
  · cases taken
  · rename_i enough
    cases taken
    have size : (middle.take number.toNat).length = number.toNat := by
      rw [List.length_take]
      omega
    obtain ⟨length, rfl⟩ := suffix_of_run read
    refine ⟨length, ?_, Nat.lt_of_le_of_lt (Nat.le_of_eq size) number.toNat_lt, ?_⟩
    · rw [List.append_assoc, List.take_append_drop]
    · rw [size, UInt64.ofNat_toNat, List.take_append_drop]
      exact read

/-- The bytes of a text are read as that text. -/
theorem text?_utf8 (text : String) : text? (Encoder.utf8 text) = some text := by
  rw [text?, Encoder.utf8]
  exact dif_pos text.isValidUTF8

/-- A text is read behind its length. -/
theorem string_reads (field : Nat) {text : String} (bound : (Encoder.utf8 text).length < 2 ^ 64) :
    (string field).Reads (Varint.encode (Encoder.utf8 text).length ++ Encoder.utf8 text) text := by
  refine (lengthDelimited_reads field (Varint.isForm_encode bound) bound).bind_nil ?_
  rw [text?_utf8]
  exact reads_pure text

/-- No bytes hold no numbers. -/
theorem varints_nil : varints [] = ([], .ok ()) := by
  rw [varints]
  rfl

/-- Numbers are read one after the other, in any form. -/
theorem varints_form {digits : Bytes} {number : Nat} (form : Varint.IsForm digits number)
    (rest : Bytes) :
    varints (digits ++ rest) =
      (UInt64.ofNat number :: (varints rest).1, (varints rest).2) := by
  have more : (digits ++ rest).isEmpty = false := by
    rw [List.isEmpty_eq_false_iff]
    exact List.append_ne_nil_of_left_ne_nil form.spells.ne_nil _
  rw [varints, more]
  simp only [Bool.false_eq_true, ↓reduceIte]
  split
  · rename_i found
    rw [varint_reads form] at found
    cases found
  · rename_i found
    rw [varint_reads form] at found
    cases found
    rfl

/-- Forms in a row are read as their numbers, in order. -/
theorem varints_forms {digits : List Bytes} {numbers : List Nat}
    (forms : List.Forall₂ Varint.IsForm digits numbers) :
    varints digits.flatten = (numbers.map UInt64.ofNat, .ok ()) := by
  induction forms with
  | nil => exact varints_nil
  | cons form _ ih => rw [List.flatten_cons, varints_form form, ih, List.map_cons]

/-- A packed list is made up of forms of its numbers. -/
theorem forms_packed (words : List UInt64) :
    List.Forall₂ Varint.IsForm (words.map fun word => Varint.encode word.toNat)
      (words.map UInt64.toNat) :=
  List.forall₂_map_left_iff.mpr <| List.forall₂_map_right_iff.mpr <|
    List.forall₂_same.mpr fun word _ => Varint.isForm_encode word.toNat_lt

/-- A list of numbers is read back. -/
theorem varints_packedBody (words : List UInt64) :
    varints (Encoder.packedBody words) = (words, .ok ()) := by
  rw [Encoder.packedBody, List.flatMap_def, varints_forms (forms_packed words), List.map_map]
  simp only [Function.comp_def, UInt64.ofNat_toNat, List.map_id']

/-- The computed length of a packed list is that of its bytes. -/
theorem length_packedBody (words : List UInt64) :
    (Encoder.packedBody words).length = Encoder.packedLength words := by
  induction words with
  | nil => rfl
  | cons word rest ih =>
      change (Varint.encode word.toNat ++ Encoder.packedBody rest).length = _
      rw [List.length_append, Varint.length_encode, ih]
      rfl

/-- A packed list of numbers is read back. -/
theorem repeated_reads (field : Nat) {words : List UInt64}
    (bound : (Encoder.packedBody words).length < 2 ^ 64) :
    (repeated field .lengthDelimited).Reads
      (Varint.encode (Encoder.packedLength words) ++ Encoder.packedBody words) words := by
  rw [← length_packedBody]
  have numbers :=
    (lengthDelimited_reads field (Varint.isForm_encode bound) bound).map varints
  rw [varints_packedBody] at numbers
  exact numbers.bind_nil fun _ => rfl

/-- A repeated field gives the numbers of a packed list, in whatever forms they are. -/
theorem repeated_reads_forms (field : Nat) {length : Bytes} {digits : List Bytes}
    {numbers : List Nat} (forms : List.Forall₂ Varint.IsForm digits numbers)
    (form : Varint.IsForm length digits.flatten.length)
    (bound : digits.flatten.length < 2 ^ 64) :
    (repeated field .lengthDelimited).Reads (length ++ digits.flatten)
      (numbers.map UInt64.ofNat) := by
  have listed := (lengthDelimited_reads field form bound).map varints
  rw [varints_forms forms] at listed
  exact listed.bind_nil fun _ => rfl

/-- A repeated field gives a number that stands alone, in whatever form it is. -/
theorem repeated_reads_form (field : Nat) {digits : Bytes} {number : Nat}
    (form : Varint.IsForm digits number) :
    (repeated field .varint).Reads digits [UInt64.ofNat number] :=
  ((varint_reads form).map fun word => ([word], Except.ok ())).bind_nil fun _ => rfl

/-- A signed number is restored from the word that stands for it. -/
theorem signedNumber_signedWord (value : Int32) :
    signedNumber (Encoder.signedWord value) = value := by
  have same : signedNumber (Encoder.signedWord value) = value.toInt64.toInt32 := by
    rw [← Int32.toBitVec_inj]
    change value.toInt64.toBitVec.setWidth 32 = value.toInt64.toBitVec.signExtend 32
    exact (BitVec.signExtend_eq_setWidth_of_le _ (by decide)).symm
  rw [same]
  exact Int32.toInt32_toInt64 value

end Decoder

end MixedInteger
