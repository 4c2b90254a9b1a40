import Mathlib.Tactic.Ring
import MixedInteger.Scalar.Binary64

/-! # Negation of machine numbers

To multiply a machine number by minus one is to negate it, whatever the number is
(`Binary64.mul_minusOne`). The product of a mantissa with that of minus one is the
mantissa, shifted, and the exponent of a machine number is the one that its format asks
for, so that rounding shifts the product back and loses nothing.
-/

namespace MixedInteger.Binary64

open Float.Model (UnpackedFloat Format totalExponent)
open Float.Model.UnpackedFloat (Sign ExtendedMantissa)

/-- The format asks for 53 digits, and for no exponent below that of the subnormal numbers. -/
theorem targetExponent_eq (m : Nat) (e : Int) :
    Format.binary64.targetExponent (totalExponent m e) = max (m.log2 + 1 + e - 53) (-1074) := rfl

/-- The mantissa of a normal number has its implicit bit. -/
theorem log2_append_one (mantissa : BitVec 52) : (1#1 ++ mantissa).toNat.log2 = 52 := by
  have small := mantissa.isLt
  have value : (1#1 ++ mantissa).toNat = 2 ^ 52 + mantissa.toNat := by
    rw [BitVec.toNat_append, ← Nat.shiftLeft_add_eq_or_of_lt small]
    rfl
  rw [value, Nat.log2_eq_iff (by omega)]
  constructor <;> omega

/-- The exponent of a machine number is the one that its format asks for. -/
theorem targetExponent_of_unpack {word : BitVec Format.binary64.numBits} {sign : Sign} {m : Nat}
    {e : Int} {positive : 0 < m}
    (unpacked : UnpackedFloat.unpack .binary64 word = .finite sign m e positive) :
    Format.binary64.targetExponent (totalExponent m e) = e := by
  have bias : (Format.binary64.exponentBias : Int) = 1023 := rfl
  rw [targetExponent_eq]
  unfold UnpackedFloat.unpack at unpacked
  dsimp only at unpacked
  by_cases special : UnpackedFloat.unpackExponent word = -1#_
  · rw [if_pos special] at unpacked
    by_cases zero : UnpackedFloat.unpackMantissa word = 0#_
    · rw [if_pos zero] at unpacked
      cases unpacked
    · rw [if_neg zero] at unpacked
      cases unpacked
  rw [if_neg special] at unpacked
  by_cases subnormal : UnpackedFloat.unpackExponent word = 0#_
  · rw [if_pos subnormal] at unpacked
    by_cases zero : UnpackedFloat.unpackMantissa word = 0#_
    · rw [dif_pos zero] at unpacked
      cases unpacked
    · rw [dif_neg zero, subnormal, bias] at unpacked
      cases unpacked
      have width : (UnpackedFloat.unpackMantissa word).toNat.log2 < 52 :=
        (Nat.log2_lt fun same => zero (BitVec.eq_of_toNat_eq same)).mpr
          (UnpackedFloat.unpackMantissa word).isLt
      change max (((UnpackedFloat.unpackMantissa word).toNat.log2 : Int) + 1 + -1074 - 53) _ =
        -1074
      omega
  · rw [if_neg subnormal, bias] at unpacked
    cases unpacked
    have least : 0 < (UnpackedFloat.unpackExponent word).toNat :=
      Nat.pos_of_ne_zero fun same => subnormal (BitVec.eq_of_toNat_eq same)
    rw [log2_append_one]
    omega

/-- Shifting out digits that are zero loses nothing. -/
theorem repeat_shiftRightOne (m n : Nat) :
    n.repeat ExtendedMantissa.shiftRightOne ⟨m * 2 ^ n, false, false⟩ = ⟨m, false, false⟩ := by
  induction n generalizing m with
  | zero => simp [Nat.repeat]
  | succ n ih =>
      have even : m * 2 ^ (n + 1) = m * 2 * 2 ^ n := by ring
      rw [Nat.repeat, even, ih, ExtendedMantissa.shiftRightOne]
      simp

/-- A power of two adds its exponent to the logarithm. -/
theorem log2_mul_two_pow {m : Nat} (positive : 0 < m) (n : Nat) :
    (m * 2 ^ n).log2 = m.log2 + n := by
  obtain ⟨low, high⟩ := (Nat.log2_eq_iff (Nat.ne_of_gt positive)).mp rfl
  have product : 0 < m * 2 ^ n := Nat.mul_pos positive (Nat.two_pow_pos n)
  rw [Nat.log2_eq_iff (Nat.ne_of_gt product)]
  constructor
  · rw [Nat.pow_add]
    exact Nat.mul_le_mul_right _ low
  · rw [Nat.add_right_comm, Nat.pow_add]
    exact Nat.mul_lt_mul_of_pos_right high (Nat.two_pow_pos n)

section Shifted

variable {m : Nat} {e : Int} (positive : 0 < m)
  (target : Format.binary64.targetExponent (totalExponent m e) = e) (n : Nat)
include positive target

/-- A mantissa that has been shifted is shifted back. -/
theorem shiftToTargetExponent_mul_two_pow :
    UnpackedFloat.shiftToTargetExponent .binary64 (m * 2 ^ n) (e - n) .exact =
      (⟨m, false, false⟩, e) := by
  have total : totalExponent (m * 2 ^ n) (e - n) = totalExponent m e := by
    rw [totalExponent, totalExponent, log2_mul_two_pow positive]
    omega
  have amount : (e - (e - n)).toNat = n := by omega
  rw [UnpackedFloat.shiftToTargetExponent, total, target, UnpackedFloat.shiftToExponent, amount]
  exact Prod.ext (repeat_shiftRightOne m n) (Int.sub_add_cancel e n)

/-- Rounding a mantissa that has been shifted loses nothing. -/
theorem roundWithAccuracy_mul_two_pow (sign : Sign) :
    UnpackedFloat.roundWithAccuracy .binary64 sign (m * 2 ^ n) (e - n) .exact =
      .finite sign m e positive := by
  have settled := shiftToTargetExponent_mul_two_pow positive target 0
  simp only [Nat.pow_zero, Nat.mul_one, Int.ofNat_zero, Int.sub_zero] at settled
  have rounded : (ExtendedMantissa.mk m false false).roundedMantissa = m := rfl
  unfold UnpackedFloat.roundWithAccuracy
  rw [shiftToTargetExponent_mul_two_pow positive target n]
  dsimp only
  rw [rounded, settled]
  exact dif_neg (Nat.ne_of_gt positive)

end Shifted

/-- To multiply by minus one is to negate. -/
theorem mul_minusOne (x : Float) : x * Scalar.minusOne = -x := by
  have minusOne : (Scalar.minusOne : Float).toModel.unpack =
      .finite .negative (2 ^ 52) (-52) (by decide) := rfl
  have negated : UnpackedFloat.mul .binary64 x.toModel.unpack
      (Scalar.minusOne : Float).toModel.unpack = x.toModel.unpack.neg := by
    rw [minusOne]
    cases unpacked : x.toModel.unpack with
    | notANumber => rfl
    | infinity sign | zero sign => cases sign <;> rfl
    | finite sign m e positive =>
        have rounded := roundWithAccuracy_mul_two_pow positive (targetExponent_of_unpack unpacked)
          52 (-sign)
        cases sign <;> exact rounded
  exact congrArg (fun unpacked => Float.ofModel (Float.Model.pack unpacked)) negated

end MixedInteger.Binary64
