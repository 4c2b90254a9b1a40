import MixedInteger.Proofs.Wire.Tracking

/-! # Variable-length integers on words

A machine writes a word byte by byte: it sets the top bit of the low bits and shifts the word
by seven, until it is small. It takes the length of the encoding from the leading zeros of the
word. Both agree with the base-128 digits of the number (`Varint.put_eq_encode`,
`Varint.wordLength_eq_length`).
-/

namespace MixedInteger.Varint

/-- The bytes of a word, found by shifting it. -/
def put (word : UInt64) : Bytes :=
  if 0x80 ≤ word then (word.toUInt8 ||| 0x80) :: put (word >>> 7) else [word.toUInt8]
termination_by word.toNat
decreasing_by
  rename_i large
  rw [UInt64.le_iff_toNat_le] at large
  rw [UInt64.toNat_shiftRight, Nat.shiftRight_eq_div_pow]
  exact Nat.div_lt_self (Nat.lt_of_lt_of_le (by decide) large) (by decide)

/-- The number of bytes of a word, found from its leading zeros. -/
def wordLength (word : UInt64) : Nat := (64 - (word ||| 1).toBitVec.clz.toNat + 6) / 7

/-- Setting the top bit of a byte keeps its digit. -/
theorem toNat_or_top (byte : UInt8) : (byte ||| 0x80).toNat = byte.toNat % 128 + 128 := by
  have bound := byte.toNat_lt
  have digit : byte.toNat % 128 < 2 ^ 7 := Nat.mod_lt _ (by decide)
  have parts : byte.toNat = byte.toNat % 128 ||| 2 ^ 7 * (byte.toNat / 128) := by
    rw [Nat.or_comm, ← Nat.two_pow_add_eq_or_of_lt digit]
    exact (Nat.div_add_mod _ _).symm
  have top : 2 ^ 7 * (byte.toNat / 128) ||| 128 = 128 := by
    have high : byte.toNat / 128 = 0 ∨ byte.toNat / 128 = 1 := by omega
    rcases high with none | one
    · rw [none]
      decide
    · rw [one]
      decide
  calc (byte ||| 0x80).toNat
      = (byte.toNat % 128 ||| 2 ^ 7 * (byte.toNat / 128)) ||| 128 := by
        rw [← parts, UInt8.toNat_or]
        rfl
    _ = byte.toNat % 128 ||| 128 := by rw [Nat.or_assoc, top]
    _ = 128 + byte.toNat % 128 := by
        rw [Nat.or_comm]
        exact (Nat.two_pow_add_eq_or_of_lt digit 1).symm
    _ = byte.toNat % 128 + 128 := Nat.add_comm _ _

/-- The bytes that are put are those of the number. -/
theorem put_eq_encode (word : UInt64) : put word = encode word.toNat := by
  fun_induction put word with
  | case1 word large ih =>
      have large : 128 ≤ word.toNat := UInt64.le_iff_toNat_le.mp large
      have shifted : (word >>> 7).toNat = word.toNat / 128 := by
        rw [UInt64.toNat_shiftRight, Nat.shiftRight_eq_div_pow]
        rfl
      have byte : word.toUInt8 ||| 0x80 = UInt8.ofNat (word.toNat % 128 + 128) := by
        rw [← UInt8.toNat_inj, toNat_or_top, UInt64.toNat_toUInt8, UInt8.toNat_ofNat']
        omega
      rw [encode_of_le large, ih, shifted, byte]
  | case2 word small =>
      have small : word.toNat < 128 := Nat.not_le.mp (UInt64.le_iff_toNat_le.not.mp small)
      rw [encode_of_lt small]
      rfl

/-- The leading zeros tell the number of binary digits. -/
theorem log2_eq_clz {bits : BitVec 64} (nonzero : bits ≠ 0) :
    Nat.log2 bits.toNat = 63 - bits.clz.toNat := by
  have positive : bits.toNat ≠ 0 := fun zero => nonzero (BitVec.eq_of_toNat_eq zero)
  have few : bits.clz.toNat < 64 := BitVec.clz_lt_iff_ne_zero.mpr nonzero
  rw [Nat.log2_eq_iff positive, show 63 - bits.clz.toNat + 1 = 64 - bits.clz.toNat by omega]
  exact ⟨BitVec.two_pow_sub_clz_le_toNat_of_ne_zero (by decide) nonzero,
    BitVec.toNat_lt_two_pow_sub_clz⟩

/-- The length found from the leading zeros is the one found from the number. -/
theorem wordLength_eq_length (word : UInt64) : wordLength word = length word.toNat := by
  have one : (word ||| 1).toBitVec.toNat = word.toNat ||| 1 := UInt64.toNat_or word 1
  have nonzero : (word ||| 1).toBitVec ≠ 0 := by
    intro zero
    have odd : 1 ≤ word.toNat ||| 1 := Nat.right_le_or
    rw [← one, zero] at odd
    exact absurd odd (by decide)
  have few : (word ||| 1).toBitVec.clz.toNat < 64 := BitVec.clz_lt_iff_ne_zero.mpr nonzero
  rw [wordLength, length, ← one, log2_eq_clz nonzero]
  omega

end MixedInteger.Varint
