import Mathlib.Analysis.SpecialFunctions.Pow.Real
import Mathlib.Analysis.SpecialFunctions.Trigonometric.Arctan
import Mathlib.Analysis.SpecialFunctions.Trigonometric.Inverse
import MixedInteger.Numeric

/-! # Exact scalars

Statements about derivatives read the arithmetic of scalars exactly, as that of a
field. The library functions stay arbitrary: what a function, its slope and its
curvature give is not restricted. The real numbers with the usual functions are
an instance.
-/

namespace MixedInteger

/-- Scalars whose arithmetic is that of a field and whose comparison decides
equality. -/
class ExactScalar (K : Type) extends Field K, Scalar K, LawfulBEq K

/-- What the rules for powers and for halves rest on. -/
class ExactPower (K : Type) [ExactScalar K] : Prop where
  power_zero : ∀ x : K, Scalar.power x 0 = 1
  power_one : ∀ x : K, Scalar.power x 1 = x
  /-- One can be halved. -/
  two_ne_zero : (Scalar.two : K) ≠ 0

/-- What the rule for whole exponents rests on. -/
class WholePower (K : Type) [ExactScalar K] : Prop where
  /-- A scalar denotes no whole number but the one that it equals. -/
  eq_natCast : ∀ {p : K} {k : Nat}, Scalar.wholeExponent? p = some k → p = k
  power_natCast : ∀ (x : K) (k : Nat), Scalar.power x k = x ^ k

/-- What reading whole exponents off scalars rests on. -/
class WholeExponent (K : Type) [ExactScalar K] : Prop where
  /-- A scalar denotes no whole number but the one that it equals. -/
  eq_natCast : ∀ {p : K} {k : Nat}, Scalar.wholeExponent? p = some k → p = k

instance {K : Type} [ExactScalar K] [WholePower K] : WholeExponent K :=
  ⟨WholePower.eq_natCast⟩

namespace Scalar

variable {K : Type} [ExactScalar K]

theorem minusOne_eq : (minusOne : K) = -1 := rfl

theorem two_eq : (two : K) = 1 + 1 := rfl

theorem half_mul_two [ExactPower K] : (half : K) * two = 1 :=
  div_mul_cancel₀ 1 ExactPower.two_ne_zero

end Scalar

noncomputable section

namespace RealScalar

/-- The unary functions on real numbers. -/
def unary : UnaryFunction → ℝ → ℝ
  | .abs, x => |x|
  | .sqrt, x => √x
  | .exp, x => Real.exp x
  | .log, x => Real.log x
  | .sin, x => Real.sin x
  | .cos, x => Real.cos x
  | .tan, x => Real.tan x
  | .asin, x => Real.arcsin x
  | .acos, x => Real.arccos x
  | .atan, x => Real.arctan x

/-- The first derivative of a unary function. The absolute value takes the
subgradient zero at zero. -/
def slope : UnaryFunction → ℝ → ℝ
  | .abs, x => if 0 < x then 1 else if x < 0 then -1 else 0
  | .sqrt, x => 1 / 2 / √x
  | .exp, x => Real.exp x
  | .log, x => 1 / x
  | .sin, x => Real.cos x
  | .cos, x => -Real.sin x
  | .tan, x => 1 / (Real.cos x * Real.cos x)
  | .asin, x => 1 / √(1 - x * x)
  | .acos, x => -1 / √(1 - x * x)
  | .atan, x => 1 / (1 + x * x)

/-- The second derivative of a unary function, with zero for the absolute value. -/
def curvature : UnaryFunction → ℝ → ℝ
  | .abs, _ => 0
  | .sqrt, x => -(1 / 4) / (x * √x)
  | .exp, x => Real.exp x
  | .log, x => -1 / (x * x)
  | .sin, x => -Real.sin x
  | .cos, x => -Real.cos x
  | .tan, x => 2 * Real.tan x / (Real.cos x * Real.cos x)
  | .asin, x => x / (1 - x * x) ^ (3 / 2 : ℝ)
  | .acos, x => -x / (1 - x * x) ^ (3 / 2 : ℝ)
  | .atan, x => -2 * x / ((1 + x * x) * (1 + x * x))

instance : ExactScalar ℝ where
  beq x y := decide (x = y)
  isFinite _ := true
  isNaN _ := false
  exceeds x y := decide (y < x)
  power x p := x ^ p
  ln := Real.log
  exp := Real.exp
  unary := unary
  slope := slope
  curvature := curvature
  wholeExponent? x := if 0 ≤ x ∧ x ≤ 4294967295 ∧ x = ⌊x⌋₊ then some ⌊x⌋₊ else none
  eq_of_beq := of_decide_eq_true
  rfl := decide_eq_true rfl

instance : ExactPower ℝ where
  power_zero := Real.rpow_zero
  power_one := Real.rpow_one
  two_ne_zero := by
    rw [Scalar.two_eq]
    norm_num

instance : WholePower ℝ where
  eq_natCast whole := by
    obtain ⟨⟨-, -, same⟩, found⟩ := Option.ite_none_right_eq_some.mp whole
    rwa [Option.some.inj found] at same
  power_natCast := Real.rpow_natCast

end RealScalar

end

end MixedInteger
