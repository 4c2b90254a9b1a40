import MixedInteger.Scalar

/-! # Binary64 scalars

Machine arithmetic as a scalar type. Each derivative formula is evaluated in
the order it is written, so results are reproducible to the last bit.
-/

namespace MixedInteger.Binary64

def unary : UnaryFunction → Float → Float
  | .abs, x => x.abs
  | .sqrt, x => x.sqrt
  | .exp, x => x.exp
  | .log, x => x.log
  | .sin, x => x.sin
  | .cos, x => x.cos
  | .tan, x => x.tan
  | .asin, x => x.asin
  | .acos, x => x.acos
  | .atan, x => x.atan

/-- The first derivative of a unary function. The absolute value takes the
subgradient zero at zero. -/
def slope : UnaryFunction → Float → Float
  | .abs, x => if x > 0.0 then 1.0 else if x < 0.0 then -1.0 else 0.0
  | .sqrt, x => 0.5 / x.sqrt
  | .exp, x => x.exp
  | .log, x => 1.0 / x
  | .sin, x => x.cos
  | .cos, x => -x.sin
  | .tan, x => 1.0 / (x.cos * x.cos)
  | .asin, x => 1.0 / (1.0 - x * x).sqrt
  | .acos, x => -1.0 / (1.0 - x * x).sqrt
  | .atan, x => 1.0 / (1.0 + x * x)

def curvature : UnaryFunction → Float → Float
  | .abs, _ => 0.0
  | .sqrt, x => -0.25 / (x * x.sqrt)
  | .exp, x => x.exp
  | .log, x => -1.0 / (x * x)
  | .sin, x => -x.sin
  | .cos, x => -x.cos
  | .tan, x => 2.0 * x.tan / (x.cos * x.cos)
  | .asin, x => x / (1.0 - x * x).pow 1.5
  | .acos, x => -x / (1.0 - x * x).pow 1.5
  | .atan, x => -2.0 * x / ((1.0 + x * x) * (1.0 + x * x))

/-- The whole number between zero and the largest 32-bit word that a machine
number equals. -/
def wholeExponent? (x : Float) : Option Nat :=
  if x >= 0.0 && x <= 4294967295.0 && x - x.floor == 0.0 then some x.toUInt32.toNat else none

instance : Scalar Float where
  zero := 0.0
  one := 1.0
  isFinite := Float.isFinite
  isNaN := Float.isNaN
  exceeds x y := x > y
  power := Float.pow
  ln := Float.log
  exp := Float.exp
  unary := unary
  slope := slope
  curvature := curvature
  wholeExponent? := wholeExponent?

end MixedInteger.Binary64
