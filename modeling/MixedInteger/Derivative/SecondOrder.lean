import MixedInteger.Derivative.Sparse

/-! # Values with first and second derivatives

A second-order quantity is a value with a sparse gradient and the lower triangle
of its Hessian. Every rule is the first-order rule together with its own
derivative. Quotients go through the reciprocal, and powers with a variable
exponent through the exponential of a logarithm.
-/

namespace MixedInteger

/-- A value with its first and second partial derivatives. -/
structure SecondOrder (K : Type) where
  value : K
  gradient : Gradient K
  hessian : Hessian K

namespace SecondOrder

variable {K : Type} [Scalar K]

/-- A value without derivatives. -/
def constant (value : K) : SecondOrder K := ⟨value, ∅, ∅⟩

/-- An independent variable: its derivative by itself is one, and it has no
curvature. -/
def seed (id : VariableId) (value : K) : SecondOrder K :=
  ⟨value, (∅ : Gradient K).insert id 1, ∅⟩

/-- The first derivative with respect to a variable. -/
def derivative (quantity : SecondOrder K) (id : VariableId) : K := quantity.gradient.entry id

/-- The second derivative with respect to two variables, in either order. -/
def secondDerivative (quantity : SecondOrder K) (i j : VariableId) : K :=
  Hessian.symmetricEntry quantity.hessian i j

/-- Whether no derivative is stored. -/
def isConstant (quantity : SecondOrder K) : Bool :=
  quantity.gradient.isEmpty && quantity.hessian.isEmpty

/-- A function of a quantity, by the function's value, slope and curvature there. -/
def chain (quantity : SecondOrder K) (value slope curvature : K) : SecondOrder K :=
  if quantity.isConstant then constant value
  else
    ⟨value, quantity.gradient.scaled slope,
      Hessian.addOuter (Sparse.scaled quantity.hessian slope) quantity.gradient quantity.gradient
        (Scalar.half * curvature)⟩

/-- The reciprocal. -/
def recip (quantity : SecondOrder K) : SecondOrder K :=
  let x := quantity.value
  quantity.chain (1 / x) (Scalar.minusOne / (x * x)) (Scalar.two / (x * x * x))

/-- The natural logarithm. -/
def ln (quantity : SecondOrder K) : SecondOrder K :=
  let x := quantity.value
  quantity.chain (Scalar.ln x) (1 / x) (Scalar.minusOne / (x * x))

/-- The exponential. -/
def exp (quantity : SecondOrder K) : SecondOrder K :=
  let e := Scalar.exp quantity.value
  quantity.chain e e e

/-- The sum of two quantities. -/
def add (left right : SecondOrder K) : SecondOrder K :=
  ⟨left.value + right.value, left.gradient.combine 1 right.gradient 1,
    Sparse.combine left.hessian 1 right.hessian 1⟩

/-- The difference of two quantities. -/
def sub (left right : SecondOrder K) : SecondOrder K :=
  ⟨left.value - right.value, left.gradient.combine 1 right.gradient Scalar.minusOne,
    Sparse.combine left.hessian 1 right.hessian Scalar.minusOne⟩

/-- The product of two quantities. -/
def mul (left right : SecondOrder K) : SecondOrder K :=
  ⟨left.value * right.value, left.gradient.combine right.value right.gradient left.value,
    Hessian.addOuter (Sparse.combine left.hessian right.value right.hessian left.value)
      left.gradient right.gradient 1⟩

/-- A multiple of a quantity. -/
def scale (quantity : SecondOrder K) (factor : K) : SecondOrder K :=
  ⟨quantity.value * factor, quantity.gradient.scaled factor,
    Sparse.scaled quantity.hessian factor⟩

/-- The quotient rule: a scaling when the divisor is constant, and otherwise the
product with the reciprocal. -/
def div (left right : SecondOrder K) : SecondOrder K :=
  if right.isConstant then left.scale (1 / right.value) else left.mul right.recip

/-- The negation of a quantity. -/
def neg (quantity : SecondOrder K) : SecondOrder K := quantity.scale Scalar.minusOne

/-- A built-in function of a quantity. -/
def apply (function : UnaryFunction) (quantity : SecondOrder K) : SecondOrder K :=
  let x := quantity.value
  quantity.chain (Scalar.unary function x) (Scalar.slope function x)
    (Scalar.curvature function x)

/-- The power rule. Constant exponents follow the rule of a monomial, with the
exponents zero, one and two treated apart; any other exponent `p` gives the
exponential of `p` times the logarithm of the base. -/
def power (base exponent : SecondOrder K) : SecondOrder K :=
  let x := base.value
  let p := exponent.value
  if exponent.isConstant then
    let value := Scalar.power x p
    if p == 0 then constant value
    else if p == 1 then base
    else
      base.chain value (p * Scalar.power x (p - 1))
        (if p == Scalar.two then Scalar.two
          else p * (p - 1) * Scalar.power x (p - Scalar.two))
  else exp (exponent.mul base.ln)

/-- Whether the value and all derivatives that are stored are finite. -/
def isFinite (quantity : SecondOrder K) : Bool :=
  Scalar.isFinite quantity.value && quantity.gradient.allEntries Scalar.isFinite
    && Sparse.allEntries quantity.hessian Scalar.isFinite

/-- Whether the value and all derivatives that are stored are zero. -/
def isZero (quantity : SecondOrder K) : Bool :=
  quantity.value == 0 && quantity.gradient.allEntries (· == 0)
    && Sparse.allEntries quantity.hessian (· == 0)

instance : Numeric K (SecondOrder K) where
  zero := constant 0
  one := constant 1
  add := add
  sub := sub
  mul := mul
  div := div
  neg := neg
  constant := constant
  seed := seed
  value := value
  scale := scale
  apply := apply
  power := power
  isFinite := isFinite
  isZero := isZero

/-- Equality of scalars, component by component. -/
instance : BEq (SecondOrder K) where
  beq left right :=
    left.value == right.value && left.gradient.toList == right.gradient.toList
      && left.hessian.toList == right.hessian.toList

end SecondOrder

end MixedInteger
