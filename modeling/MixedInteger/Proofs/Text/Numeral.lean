import Mathlib.Algebra.Group.Nat.Defs
import MixedInteger.Text.Word

/-! # Numerals

A word is written as a numeral: decimal digits, at least one of them, and perhaps a plus sign
in front of them (`Text.Denotes`). Leading zeros do not matter. The reader finds a word
exactly in the texts that denote it (`Text.readWord_eq_ok_iff`). Of any other text it says
what is wrong at the first character where something is wrong (`Text.readWord_eq_error_iff`).
-/

namespace MixedInteger.Text

/-- Whether characters are decimal digits, at least one of them, that make up a number. -/
structure IsNumeral (digits : List Char) (number : Nat) : Prop where
  nonempty : digits ≠ []
  decimal : ∀ c ∈ digits, c.isDigit = true
  value : Nat.ofDigitChars 10 digits 0 = number

/-- Whether a text stands for a word. -/
inductive Denotes : List Char → UInt32 → Prop
  | plain {digits : List Char} {word : UInt32} (numeral : IsNumeral digits word.toNat) :
      Denotes digits word
  | signed {digits : List Char} {word : UInt32} (numeral : IsNumeral digits word.toNat) :
      Denotes ('+' :: digits) word

/-- Whether a character breaks off a number that the digits before it make up: it is no digit,
or the number no longer fits 32 bits with it. -/
inductive BreaksOff (number : Nat) (c : Char) : WordError → Prop
  | invalidDigit (other : c.isDigit = false) : BreaksOff number c .invalidDigit
  | tooLarge (digit : c.isDigit = true) (large : 2 ^ 32 ≤ Nat.ofDigitChars 10 [c] number) :
      BreaksOff number c .tooLarge

/-- Whether a text is broken off at a character behind digits that make up a 32-bit number. -/
inductive IsBroken : List Char → WordError → Prop
  | intro {front : List Char} (decimal : ∀ d ∈ front, d.isDigit = true)
      (fits : Nat.ofDigitChars 10 front 0 < 2 ^ 32) {c : Char} {error : WordError}
      (breaks : BreaksOff (Nat.ofDigitChars 10 front 0) c error) (back : List Char) :
      IsBroken (front ++ c :: back) error

/-- Why a text stands for no word. -/
inductive Refused : List Char → WordError → Prop
  | empty : Refused [] .empty
  | sign : Refused ['+'] .invalidDigit
  | plain {digits : List Char} {error : WordError} (unsigned : digits.head? ≠ some '+')
      (broken : IsBroken digits error) : Refused digits error
  | signed {digits : List Char} {error : WordError} (broken : IsBroken digits error) :
      Refused ('+' :: digits) error

/-- A decimal digit has its value. -/
theorem digitValue?_of_isDigit {c : Char} (digit : c.isDigit = true) :
    digitValue? c = some (c.toNat - '0'.toNat) := by
  rw [Char.isDigit, Bool.and_eq_true, decide_eq_true_iff, decide_eq_true_iff] at digit
  exact if_pos digit

/-- Any other character has none. -/
theorem digitValue?_of_not_isDigit {c : Char} (other : c.isDigit = false) :
    digitValue? c = none := by
  refine if_neg fun digit => ?_
  rw [Char.isDigit, Bool.and_eq_false_iff, decide_eq_false_iff_not,
    decide_eq_false_iff_not] at other
  exact other.elim (· digit.1) (· digit.2)

/-- Further digits do not make a number smaller. -/
theorem le_ofDigitChars (number : Nat) (digits : List Char) :
    number ≤ Nat.ofDigitChars 10 digits number := by
  induction digits generalizing number with
  | nil => exact Nat.le_refl _
  | cons c rest ih =>
      rw [Nat.ofDigitChars_cons]
      exact Nat.le_trans (by omega) (ih _)

/-- The first digit is added to a number before the others are. -/
theorem ofDigitChars_cons (number : Nat) (c : Char) (rest : List Char) :
    Nat.ofDigitChars 10 (c :: rest) number =
      Nat.ofDigitChars 10 rest (Nat.ofDigitChars 10 [c] number) := Nat.ofDigitChars_cons

/-- One more digit multiplies by ten and adds its value. -/
theorem ofDigitChars_singleton (number : Nat) (c : Char) :
    Nat.ofDigitChars 10 [c] number = number * 10 + (c.toNat - '0'.toNat) := by
  rw [Nat.ofDigitChars_cons, Nat.ofDigitChars_nil, Nat.mul_comm]

/-- A digit is read on as long as the number fits into a word. -/
theorem readDigits_cons_of_fits {number : Nat} {c : Char} (digit : c.isDigit = true)
    (fits : Nat.ofDigitChars 10 [c] number < 2 ^ 32) (rest : List Char) :
    readDigits number (c :: rest) = readDigits (Nat.ofDigitChars 10 [c] number) rest := by
  rw [ofDigitChars_singleton] at fits ⊢
  rw [readDigits, digitValue?_of_isDigit digit]
  exact if_pos fits

/-- Reading ends with the error of the character at which it breaks off. -/
theorem readDigits_cons_of_breaksOff {number : Nat} {c : Char} {error : WordError}
    (breaks : BreaksOff number c error) (rest : List Char) :
    readDigits number (c :: rest) = .error error := by
  cases breaks with
  | invalidDigit other => rw [readDigits, digitValue?_of_not_isDigit other]
  | tooLarge digit large =>
      rw [ofDigitChars_singleton] at large
      rw [readDigits, digitValue?_of_isDigit digit]
      exact if_neg (Nat.not_lt.mpr large)

/-- A character either goes on with a number or breaks it off. -/
theorem fits_or_breaksOff (number : Nat) (c : Char) :
    c.isDigit = true ∧ Nat.ofDigitChars 10 [c] number < 2 ^ 32 ∨
      ∃ error, BreaksOff number c error := by
  cases digit : c.isDigit with
  | false => exact .inr ⟨_, .invalidDigit digit⟩
  | true =>
      by_cases fits : Nat.ofDigitChars 10 [c] number < 2 ^ 32
      · exact .inl ⟨rfl, fits⟩
      · exact .inr ⟨_, .tooLarge digit (Nat.not_lt.mp fits)⟩

/-- Digits that make up a 32-bit number are read. -/
theorem readDigits_append {number : Nat} {front : List Char}
    (decimal : ∀ d ∈ front, d.isDigit = true)
    (fits : Nat.ofDigitChars 10 front number < 2 ^ 32) (rest : List Char) :
    readDigits number (front ++ rest) = readDigits (Nat.ofDigitChars 10 front number) rest := by
  induction front generalizing number with
  | nil => rfl
  | cons c front ih =>
      obtain ⟨digit, later⟩ := List.forall_mem_cons.mp decimal
      rw [ofDigitChars_cons] at fits ⊢
      have head := Nat.lt_of_le_of_lt (le_ofDigitChars _ front) fits
      rw [List.cons_append, readDigits_cons_of_fits digit head, ih later fits]

/-- Characters are digits that make up a 32-bit number, or one of them breaks it off. -/
theorem decimal_or_breaksOff {number : Nat} (small : number < 2 ^ 32) (text : List Char) :
    (∀ c ∈ text, c.isDigit = true) ∧ Nat.ofDigitChars 10 text number < 2 ^ 32 ∨
      ∃ front c back error, text = front ++ c :: back ∧ (∀ d ∈ front, d.isDigit = true) ∧
        Nat.ofDigitChars 10 front number < 2 ^ 32 ∧
        BreaksOff (Nat.ofDigitChars 10 front number) c error := by
  induction text generalizing number with
  | nil => exact .inl ⟨nofun, small⟩
  | cons c rest ih =>
      rcases fits_or_breaksOff number c with ⟨digit, fits⟩ | ⟨error, breaks⟩
      · rcases ih fits with
          ⟨decimal, whole⟩ | ⟨front, last, back, error, rfl, decimal, below, breaks⟩
        · rw [ofDigitChars_cons]
          exact .inl ⟨List.forall_mem_cons.mpr ⟨digit, decimal⟩, whole⟩
        · refine .inr ⟨c :: front, last, back, error, rfl,
            List.forall_mem_cons.mpr ⟨digit, decimal⟩, ?_⟩
          rw [ofDigitChars_cons]
          exact ⟨below, breaks⟩
      · exact .inr ⟨[], c, rest, error, rfl, nofun, small, breaks⟩

/-- Digits that fit into a word are read as their number. -/
theorem readDigits_of_decimal {digits : List Char} (decimal : ∀ c ∈ digits, c.isDigit = true)
    (fits : Nat.ofDigitChars 10 digits 0 < 2 ^ 32) :
    readDigits 0 digits = .ok (Nat.ofDigitChars 10 digits 0) := by
  have read := readDigits_append decimal fits []
  rwa [List.append_nil] at read

/-- Text that breaks off is refused with the error of the place. -/
theorem IsBroken.readDigits_eq {text : List Char} {error : WordError}
    (broken : IsBroken text error) : readDigits 0 text = .error error := by
  obtain ⟨decimal, fits, breaks, back⟩ := broken
  rw [readDigits_append decimal fits, readDigits_cons_of_breaksOff breaks]

/-- Nothing breaks off in an empty text. -/
theorem IsBroken.ne_nil {text : List Char} {error : WordError} (broken : IsBroken text error) :
    text ≠ [] := by
  obtain ⟨-, -, -, back⟩ := broken
  exact List.append_ne_nil_of_right_ne_nil _ (List.cons_ne_nil _ _)

/-- A text without a sign is read from its first character. -/
theorem readWord_of_unsigned {text : List Char} (nonempty : text ≠ [])
    (unsigned : text.head? ≠ some '+') : readWord text = (readDigits 0 text).map UInt32.ofNat := by
  unfold readWord
  split
  · exact absurd rfl nonempty
  · exact absurd rfl unsigned
  · exact absurd rfl unsigned
  · rfl

/-- A plus sign is passed over if something follows it. -/
theorem readWord_of_signed {digits : List Char} (nonempty : digits ≠ []) :
    readWord ('+' :: digits) = (readDigits 0 digits).map UInt32.ofNat := by
  cases digits with
  | nil => exact absurd rfl nonempty
  | cons c rest => rfl

namespace IsNumeral

variable {digits : List Char} {word : UInt32}

/-- A numeral does not start with a sign. -/
theorem head?_ne_plus {number : Nat} (numeral : IsNumeral digits number) :
    digits.head? ≠ some '+' := fun signed =>
  nomatch numeral.decimal '+' (List.mem_of_mem_head? signed)

/-- A numeral whose number is that of a word is read as the word. -/
theorem readDigits_eq (numeral : IsNumeral digits word.toNat) :
    (readDigits 0 digits).map UInt32.ofNat = .ok word := by
  have fits : Nat.ofDigitChars 10 digits 0 < 2 ^ 32 := numeral.value ▸ word.toNat_lt
  rw [readDigits_of_decimal numeral.decimal fits, numeral.value]
  exact congrArg Except.ok UInt32.ofNat_toNat

end IsNumeral

/-- A text that denotes a word is read as that word. -/
theorem Denotes.readWord_eq {text : List Char} {word : UInt32} (denotes : Denotes text word) :
    readWord text = .ok word := by
  cases denotes with
  | plain numeral =>
      rw [readWord_of_unsigned numeral.nonempty numeral.head?_ne_plus, numeral.readDigits_eq]
  | signed numeral => rw [readWord_of_signed numeral.nonempty, numeral.readDigits_eq]

/-- A text that is refused is answered with its error. -/
theorem Refused.readWord_eq {text : List Char} {error : WordError} (refused : Refused text error) :
    readWord text = .error error := by
  cases refused with
  | empty => rfl
  | sign => rfl
  | plain unsigned broken =>
      rw [readWord_of_unsigned broken.ne_nil unsigned, broken.readDigits_eq]
      rfl
  | signed broken =>
      rw [readWord_of_signed broken.ne_nil, broken.readDigits_eq]
      rfl

/-- A text that is refused stands for no word. -/
theorem Refused.not_denotes {text : List Char} {error : WordError} {word : UInt32}
    (refused : Refused text error) : ¬ Denotes text word := fun denotes =>
  nomatch refused.readWord_eq.symm.trans denotes.readWord_eq

/-- Digits are a numeral of a word, or one of them is broken off. -/
theorem isNumeral_or_isBroken {digits : List Char} (nonempty : digits ≠ []) :
    (∃ word : UInt32, IsNumeral digits word.toNat) ∨ ∃ error, IsBroken digits error := by
  rcases decimal_or_breaksOff (by decide : 0 < 2 ^ 32) digits with
    ⟨decimal, fits⟩ | ⟨front, c, back, error, rfl, decimal, fits, breaks⟩
  · exact .inl ⟨UInt32.ofNat (Nat.ofDigitChars 10 digits 0), nonempty, decimal,
      (UInt32.toNat_ofNat_of_lt' fits).symm⟩
  · exact .inr ⟨error, .intro decimal fits breaks back⟩

/-- Every text stands for a word or is refused. -/
theorem denotes_or_refused (text : List Char) :
    (∃ word, Denotes text word) ∨ ∃ error, Refused text error := by
  cases text with
  | nil => exact .inr ⟨.empty, .empty⟩
  | cons c rest =>
      by_cases unsigned : (c :: rest).head? ≠ some '+'
      · exact (isNumeral_or_isBroken (List.cons_ne_nil c rest)).imp
          (fun ⟨word, numeral⟩ => ⟨word, .plain numeral⟩)
          fun ⟨error, broken⟩ => ⟨error, .plain unsigned broken⟩
      · obtain rfl : c = '+' := Option.some.inj (Decidable.not_not.mp unsigned)
        cases rest with
        | nil => exact .inr ⟨.invalidDigit, .sign⟩
        | cons d rest =>
            exact (isNumeral_or_isBroken (List.cons_ne_nil d rest)).imp
              (fun ⟨word, numeral⟩ => ⟨word, .signed numeral⟩)
              fun ⟨error, broken⟩ => ⟨error, .signed broken⟩

/-- A word is found exactly in the texts that stand for it. -/
theorem readWord_eq_ok_iff {text : List Char} {word : UInt32} :
    readWord text = .ok word ↔ Denotes text word := by
  refine ⟨fun read => ?_, Denotes.readWord_eq⟩
  rcases denotes_or_refused text with ⟨other, denotes⟩ | ⟨error, refused⟩
  · cases denotes.readWord_eq.symm.trans read
    exact denotes
  · exact nomatch refused.readWord_eq.symm.trans read

/-- An error is found exactly where a text is refused for it. -/
theorem readWord_eq_error_iff {text : List Char} {error : WordError} :
    readWord text = .error error ↔ Refused text error := by
  refine ⟨fun failed => ?_, Refused.readWord_eq⟩
  rcases denotes_or_refused text with ⟨word, denotes⟩ | ⟨other, refused⟩
  · exact nomatch denotes.readWord_eq.symm.trans failed
  · cases refused.readWord_eq.symm.trans failed
    exact refused

/-- The decimal form of a word is a numeral. -/
theorem isNumeral_writeWord (word : UInt32) : IsNumeral (writeWord word) word.toNat where
  nonempty := Nat.toDigits_ne_nil
  decimal _ member := Nat.isDigit_of_mem_toDigits (by decide) (by decide) member
  value := Nat.ofDigitChars_toDigits (by decide) (by decide)

/-- A word that is written denotes itself. -/
theorem denotes_writeWord (word : UInt32) : Denotes (writeWord word) word :=
  .plain (isNumeral_writeWord word)

end MixedInteger.Text
