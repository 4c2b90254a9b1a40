import MixedInteger.Wire.Varint

/-! # Decoding fields

A decoder reads from the front of its input and hands back what it has not read,
also when it fails. That the rest is a suffix of the input is part of the type,
so no decoder can read outside its input, and a decoder of the fields of a
message ends because every field key takes at least one byte.
-/

namespace MixedInteger

/-- What a decoder found and what it left unread. -/
structure Reading (α : Type) where
  result : Except WireError α
  rest : Bytes

/-- A reader of a prefix of its input. -/
structure Decoder (α : Type) where
  /-- Read from the front of an input. -/
  run : Bytes → Reading α
  /-- What is left is the end of the input. -/
  rest_suffix : ∀ input, (run input).rest <:+ input

namespace Decoder

variable {α β : Type}

/-- A decoder that takes nothing and gives a value. -/
protected def pure (value : α) : Decoder α := ⟨fun input => ⟨.ok value, input⟩, List.suffix_refl⟩

/-- A decoder that takes nothing and fails. -/
def fail (error : WireError) : Decoder α :=
  ⟨fun input => ⟨.error error, input⟩, List.suffix_refl⟩

/-- What one decoder leaves after another has found a value. -/
def continueWith (first : Reading α) (next : α → Decoder β) : Reading β :=
  match first.result with
  | .ok value => (next value).run first.rest
  | .error error => ⟨.error error, first.rest⟩

/-- Going on takes from the rest of the first reading. -/
theorem continueWith_rest_suffix (first : Reading α) (next : α → Decoder β) :
    (continueWith first next).rest <:+ first.rest := by
  unfold continueWith
  split
  · exact (next _).rest_suffix _
  · exact List.suffix_refl _

/-- Read with one decoder and then with another. -/
protected def bind (first : Decoder α) (next : α → Decoder β) : Decoder β :=
  ⟨fun input => continueWith (first.run input) next, fun input =>
    (continueWith_rest_suffix _ next).trans (first.rest_suffix input)⟩

instance : Monad Decoder where
  pure := Decoder.pure
  bind := Decoder.bind

/-- A result that needs no reading. -/
def ofExcept : Except WireError α → Decoder α
  | .ok value => pure value
  | .error error => fail error

/-- Read the digits of a variable-length integer, at most a budget of them, and
add them to a total at ascending powers of 128. -/
def readDigits : (budget : Nat) → (weight total : Nat) → Bytes → Reading Nat
  | 0, _, _, input => ⟨.error .varintOverflow, input⟩
  | _ + 1, _, _, [] => ⟨.error (.truncated .varint), []⟩
  | budget + 1, weight, total, byte :: input =>
      let sum := total + Varint.digit byte * weight
      if Varint.continues byte then readDigits budget (weight * 128) sum input else ⟨.ok sum, input⟩

/-- Reading digits takes bytes off the front. -/
theorem readDigits_rest_suffix (budget weight total : Nat) (input : Bytes) :
    (readDigits budget weight total input).rest <:+ input := by
  induction budget generalizing weight total input with
  | zero => exact List.suffix_refl _
  | succ budget ih =>
      cases input with
      | nil => exact List.suffix_refl _
      | cons byte input =>
          unfold readDigits
          split
          · exact (ih _ _ _).trans (List.suffix_cons _ _)
          · exact List.suffix_cons _ _

/-- A number of digits, as a number that may be too large for 64 bits. -/
def digits : Decoder Nat :=
  ⟨readDigits Varint.maxLength 1 0, readDigits_rest_suffix _ _ _⟩

/-- A 64-bit number. Bits beyond the sixty-fourth are dropped. -/
def varint : Decoder UInt64 := do
  let number ← digits
  return UInt64.ofNat number

/-- The key of the next field: its number and its encoding. -/
def fieldKey : Decoder (Nat × WireType) := do
  let key ← varint
  let field := key.toNat / 8 % UInt32.size
  if field = 0 then fail .zeroFieldNumber
  else
    match WireType.ofBits? (key.toNat % 8) with
    | some wireType => return (field, wireType)
    | none => fail (.invalidWireType field (key.toNat % 8))

/-- Whether there are bytes left. -/
def hasMore : Decoder Bool := ⟨fun input => ⟨.ok !input.isEmpty, input⟩, List.suffix_refl⟩

/-- The key of the next field, or nothing at the end of the input. -/
def key : Decoder (Option (Nat × WireType)) := do
  if ← hasMore then
    let found ← fieldKey
    return some found
  else return none

/-- A number of bytes that are known to be there. -/
def split (count : Nat) : Decoder Bytes :=
  ⟨fun input => ⟨.ok (input.take count), input.drop count⟩, List.drop_suffix count⟩

/-- The number of bytes left. -/
def remaining : Decoder Nat := ⟨fun input => ⟨.ok input.length, input⟩, List.suffix_refl⟩

/-- A number of bytes. Nothing is read when there are fewer. -/
def take (count : Nat) (part : Part) : Decoder Bytes := do
  if (← remaining) < count then fail (.truncated part) else split count

/-- The word of bytes that are given least significant first. -/
def word (bytes : Bytes) : UInt64 :=
  UInt64.ofNat (bytes.foldr (fun byte high => byte.toNat + 256 * high) 0)

/-- A word of eight bytes. -/
def fixed64 : Decoder UInt64 := do
  let bytes ← take 8 .fixed64
  return word bytes

/-- A length and as many bytes. -/
def lengthDelimited (field : Nat) : Decoder Bytes := do
  let length ← varint
  let available ← remaining
  if available < length.toNat then fail (.lengthOutOfBounds field length.toNat available)
  else split length.toNat

/-- The text of a sequence of bytes, if they are UTF-8. -/
def text? (bytes : Bytes) : Option String := String.fromUTF8? ⟨bytes.toArray⟩

/-- A length and a text of as many bytes. -/
def string (field : Nat) : Decoder String := do
  let bytes ← lengthDelimited field
  match text? bytes with
  | some text => return text
  | none => fail (.invalidUtf8 field)

/-- A 32-bit number. Higher bits are dropped. -/
def uint32 : Decoder UInt32 := do
  let number ← varint
  return number.toUInt32

/-- The signed number that a word stands for. Higher bits are dropped. -/
def signedNumber (number : UInt64) : Int32 := number.toUInt32.toInt32

/-- A number of 32 bits with a sign. -/
def int32 : Decoder Int32 := do
  let number ← varint
  return signedNumber number

/-- The body of a field that nobody knows. -/
def skip (field : Nat) : WireType → Decoder Unit
  | .varint => do let _ ← varint
  | .fixed64 => do let _ ← take 8 .fixed64
  | .fixed32 => do let _ ← take 4 .fixed32
  | .lengthDelimited => do let _ ← lengthDelimited field

/-- Reading a number takes at least one byte off an input that has any. -/
theorem readDigits_rest_length_lt {budget weight total : Nat} {input : Bytes} {number : Nat}
    {rest : Bytes} (found : readDigits budget weight total input = ⟨.ok number, rest⟩) :
    rest.length < input.length := by
  cases budget with
  | zero => cases found
  | succ budget =>
      cases input with
      | nil => cases found
      | cons byte input =>
          unfold readDigits at found
          have shorter : ∀ reading : Reading Nat, reading.rest <:+ input →
              reading = ⟨.ok number, rest⟩ → rest.length < (byte :: input).length := by
            intro reading suffix same
            subst same
            exact Nat.lt_succ_of_le suffix.length_le
          split at found
          · exact shorter _ (readDigits_rest_suffix _ _ _ _) found
          · exact shorter ⟨_, input⟩ (List.suffix_refl _) found

/-- Reading a number takes at least one byte off the input. -/
theorem varint_rest_length_lt {input : Bytes} {number : UInt64} {rest : Bytes}
    (found : varint.run input = ⟨.ok number, rest⟩) : rest.length < input.length := by
  change continueWith (readDigits Varint.maxLength 1 0 input) _ = _ at found
  unfold continueWith at found
  split at found
  · rename_i value result
    change Reading.mk _ _ = _ at found
    cases found
    have taken : readDigits Varint.maxLength 1 0 input =
        ⟨.ok value, (readDigits Varint.maxLength 1 0 input).rest⟩ := by rw [← result]
    exact readDigits_rest_length_lt taken
  · cases found

/-- Numbers one after the other, up to the end of the input or the first that is
malformed. -/
def varints (input : Bytes) : List UInt64 × Except WireError Unit :=
  if input.isEmpty then ([], .ok ())
  else
    match found : varint.run input with
    | ⟨.error error, _⟩ => ([], .error error)
    | ⟨.ok number, rest⟩ =>
        have : rest.length < input.length := varint_rest_length_lt found
        let (numbers, outcome) := varints rest
        (number :: numbers, outcome)
termination_by input.length

/-- Numbers of a repeated field, in either of its forms: one number, or a packed
list of them. The numbers before a malformed one are found all the same. -/
def repeatedNumbers (field : Nat) : WireType → Decoder (List UInt64 × Except WireError Unit)
  | .varint => do
      let number ← varint
      return ([number], .ok ())
  | .lengthDelimited => do
      let body ← lengthDelimited field
      return varints body
  | wireType => fail (.invalidWireType field wireType.bits)

/-- The numbers of a repeated field, all of them well-formed. -/
def repeated (field : Nat) (wireType : WireType) : Decoder (List UInt64) := do
  let (numbers, outcome) ← repeatedNumbers field wireType
  let _ ← ofExcept outcome
  return numbers

end Decoder

end MixedInteger
