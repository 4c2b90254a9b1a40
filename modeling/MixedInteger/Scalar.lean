/-! # Scalars

The number system an optimisation model is written in. A scalar type offers the
four arithmetic operations, powers, logarithm and exponential, and for every
named unary function its value and its first two derivatives. No law is
required: binary64 arithmetic is an instance, and so is any field once the
transcendental functions are chosen.
-/

namespace MixedInteger

/-- The named functions of one argument that an expression may apply. -/
inductive UnaryFunction where
  | abs
  | sqrt
  | exp
  | log
  | sin
  | cos
  | tan
  | asin
  | acos
  | atan
  deriving DecidableEq, Repr

namespace UnaryFunction

/-- All unary functions, in the order of their declaration. -/
def all : List UnaryFunction :=
  [abs, sqrt, exp, log, sin, cos, tan, asin, acos, atan]

/-- The name a function is reported under. -/
def name : UnaryFunction → String
  | abs => "abs"
  | sqrt => "sqrt"
  | exp => "exp"
  | log => "log"
  | sin => "sin"
  | cos => "cos"
  | tan => "tan"
  | asin => "asin"
  | acos => "acos"
  | atan => "atan"

end UnaryFunction

/-- Arithmetic on scalars. The unary functions come with the slopes and
curvatures that derivative rules use for them. -/
class Scalar (K : Type) extends Zero K, One K, Add K, Sub K, Mul K, Div K, Neg K, BEq K where
  /-- Whether a scalar is neither infinite nor undefined. -/
  isFinite : K → Bool
  /-- Whether a scalar is the outcome of an undefined operation. -/
  isNaN : K → Bool
  /-- Whether the first scalar is strictly above the second. -/
  exceeds : K → K → Bool
  power : K → K → K
  ln : K → K
  exp : K → K
  unary : UnaryFunction → K → K
  slope : UnaryFunction → K → K
  curvature : UnaryFunction → K → K
  /-- The whole number of 32 bits that a scalar denotes, if it denotes one. -/
  wholeExponent? : K → Option Nat

namespace Scalar

variable {K : Type} [Scalar K]

def two : K := 1 + 1

def half : K := 1 / two

def minusOne : K := -1

end Scalar

end MixedInteger
