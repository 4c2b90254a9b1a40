import MixedInteger.Contract

/-! # Polynomial degrees

The degree of an expression as a polynomial in its variables, as far as it is
known. A known degree may be above the true one but never below it; sums and
products that leave the 32-bit range are unknown instead of wrapping.
-/

namespace MixedInteger

/-- A known polynomial degree, or no knowledge that there is a polynomial. -/
inductive Degree where
  | known (degree : Nat)
  | unknown
  deriving DecidableEq, Repr

namespace Degree

/-- A degree, provided that it fits 32 bits. -/
def ofNat (degree : Nat) : Degree := if degree ≤ largestWord then known degree else unknown

/-- Whether the degree is that of a polynomial. -/
def isPolynomial : Degree → Bool
  | known _ => true
  | unknown => false

/-- The degree, if it is known. -/
def known? : Degree → Option Nat
  | known degree => some degree
  | unknown => none

/-- The degree of a sum. -/
def max : Degree → Degree → Degree
  | known a, known b => known (Nat.max a b)
  | _, _ => unknown

/-- The degree of a product. -/
def product : Degree → Degree → Degree
  | known a, known b => ofNat (a + b)
  | _, _ => unknown

/-- The degree of a power with a whole exponent. -/
def power : Degree → Nat → Degree
  | known a, exponent => ofNat (a * exponent)
  | unknown, _ => unknown

def text : Degree → String
  | known degree => toString degree
  | unknown => "unknown"

end Degree

end MixedInteger
