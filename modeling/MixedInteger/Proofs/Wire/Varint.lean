import MixedInteger.Wire.Varint
import Mathlib.Data.Nat.Log
import Mathlib.Tactic.Ring

/-! # Variable-length integers

The length that is computed for a number is the length of its encoding, and a
64-bit number fits the bytes that a reader accepts. Leading zero digits do not
change a number, so a reader meets numbers in other forms than the one that is
written.
-/

namespace MixedInteger.Varint

/-- A number below 128 is one byte. -/
theorem encode_of_lt {value : Nat} (small : value < 128) :
    encode value = [UInt8.ofNat value] := by
  rw [encode, if_pos small]

/-- A larger number starts with its lowest digit, marked as being followed by another. -/
theorem encode_of_le {value : Nat} (large : 128 ≤ value) :
    encode value = UInt8.ofNat (value % 128 + 128) :: encode (value / 128) := by
  rw [encode, if_neg (Nat.not_lt.mpr large)]

/-- The last byte of an encoding is not followed by another. -/
theorem continues_ofNat_of_lt {value : Nat} (small : value < 128) :
    continues (UInt8.ofNat value) = false := by
  simp only [continues, UInt8.toNat_ofNat', decide_eq_false_iff_not]
  omega

/-- The byte of a number below 128 has it as its digit. -/
theorem digit_ofNat_of_lt {value : Nat} (small : value < 128) :
    digit (UInt8.ofNat value) = value := by
  simp only [digit, UInt8.toNat_ofNat']
  omega

/-- Every byte of an encoding but the last is followed by another. -/
theorem continues_ofNat_add (value : Nat) : continues (UInt8.ofNat (value % 128 + 128)) = true := by
  simp only [continues, UInt8.toNat_ofNat', decide_eq_true_eq]
  omega

/-- The mark does not change the digit. -/
theorem digit_ofNat_add (value : Nat) : digit (UInt8.ofNat (value % 128 + 128)) = value % 128 := by
  simp only [digit, UInt8.toNat_ofNat']
  omega

/-- Every number has at least one byte. -/
theorem encode_ne_nil (value : Nat) : encode value ≠ [] := by
  rw [encode]
  split
  · exact List.cons_ne_nil _ _
  · exact List.cons_ne_nil _ _

/-- Setting the lowest bit does not change the number of binary digits. -/
theorem log2_or_one (value : Nat) : Nat.log2 (value ||| 1) = Nat.log2 value := by
  have half : (value ||| 1) / 2 = value / 2 := by
    have shifted := Nat.shiftRight_or_distrib (a := value) (b := 1) (i := 1)
    simpa [Nat.shiftRight_one] using shifted
  have lower : value ≤ value ||| 1 := Nat.left_le_or
  rw [Nat.log2_def (value ||| 1), Nat.log2_def value, half]
  by_cases large : 2 ≤ value
  · rw [if_pos large, if_pos (Nat.le_trans large lower)]
  · have small : ¬ 2 ≤ value ||| 1 := by
      intro absurd
      have quotient : 1 ≤ (value ||| 1) / 2 := Nat.div_le_div_right (c := 2) absurd
      omega
    rw [if_neg large, if_neg small]

/-- Seven more binary digits are one more byte. -/
theorem log2_eq_of_le {value : Nat} (large : 128 ≤ value) :
    Nat.log2 value = Nat.log2 (value / 128) + 7 := by
  rw [Nat.log2_eq_log_two, Nat.log2_eq_log_two, show (128 : Nat) = 2 ^ 7 from rfl,
    Nat.log_div_base_pow]
  have digits : 7 ≤ Nat.log 2 value := Nat.le_log_of_pow_le Nat.one_lt_two large
  omega

/-- The computed length of a number is that of its encoding. -/
theorem length_encode (value : Nat) : (encode value).length = length value := by
  induction value using encode.induct with
  | case1 value small =>
      rw [encode_of_lt small, length, log2_or_one]
      have digits : Nat.log2 value < 7 := by
        rw [Nat.log2_eq_log_two]
        exact Nat.log_lt_of_lt_pow' (by decide) small
      simp only [List.length_singleton]
      omega
  | case2 value large ih =>
      have large := Nat.not_lt.mp large
      rw [encode_of_le large, List.length_cons, ih, length, length, log2_or_one, log2_or_one,
        log2_eq_of_le large]
      omega

/-- A number below a power of 128 takes at most as many bytes. -/
theorem length_encode_le {value budget : Nat} (bound : value < 128 ^ (budget + 1)) :
    (encode value).length ≤ budget + 1 := by
  induction budget generalizing value with
  | zero => rw [encode_of_lt (by simpa using bound)]; rfl
  | succ budget ih =>
      by_cases small : value < 128
      · rw [encode_of_lt small]
        exact Nat.succ_le_succ (Nat.zero_le _)
      · rw [encode_of_le (Nat.not_lt.mp small), List.length_cons]
        refine Nat.succ_le_succ (ih ?_)
        rw [Nat.div_lt_iff_lt_mul (by decide)]
        exact bound

/-- Bytes that spell a number: its base-128 digits, least significant first, each
but the last marked as being followed by another. -/
inductive Spells : Bytes → Nat → Prop
  | last {byte : UInt8} (ends : continues byte = false) : Spells [byte] (digit byte)
  | next {byte : UInt8} {bytes : Bytes} {number : Nat} (goesOn : continues byte = true)
      (higher : Spells bytes number) : Spells (byte :: bytes) (digit byte + 128 * number)

theorem Spells.ne_nil {bytes : Bytes} {number : Nat} (spells : Spells bytes number) :
    bytes ≠ [] := by
  cases spells <;> exact List.cons_ne_nil _ _

/-- The encoding of a number spells it. -/
theorem spells_encode (value : Nat) : Spells (encode value) value := by
  induction value using encode.induct with
  | case1 value small =>
      have last := Spells.last (continues_ofNat_of_lt small)
      rwa [digit_ofNat_of_lt small, ← encode_of_lt small] at last
  | case2 value large ih =>
      have next := Spells.next (continues_ofNat_add value) ih
      rwa [digit_ofNat_add, Nat.mod_add_div, ← encode_of_le (Nat.not_lt.mp large)] at next

/-- A form in which a reader accepts a number. -/
structure IsForm (bytes : Bytes) (number : Nat) : Prop where
  spells : Spells bytes number
  short : bytes.length ≤ maxLength

/-- The encoding of a 64-bit number is one of its forms. -/
theorem isForm_encode {value : Nat} (bound : value < 2 ^ 64) : IsForm (encode value) value where
  spells := spells_encode value
  short := length_encode_le (Nat.lt_of_lt_of_le bound (by decide))

end MixedInteger.Varint
