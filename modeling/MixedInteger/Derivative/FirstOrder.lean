import MixedInteger.Derivative.Sparse

/-! # Values with first derivatives

A first-order quantity is a value with a sparse gradient. Every operation
carries its textbook derivative rule. Powers with an exponent that depends on no
variable avoid the logarithm, so a negative base keeps a defined derivative.
-/

namespace MixedInteger

/-- A value with its first partial derivatives. -/
structure FirstOrder (K : Type) where
  value : K
  gradient : Gradient K

namespace FirstOrder

variable {K : Type} [Scalar K]

/-- A value without derivatives. -/
def constant (value : K) : FirstOrder K := ⟨value, ∅⟩

/-- An independent variable: its derivative by itself is one. -/
def seed (id : VariableId) (value : K) : FirstOrder K :=
  ⟨value, (∅ : Gradient K).insert id 1⟩

/-- The derivative with respect to a variable. -/
def derivative (quantity : FirstOrder K) (id : VariableId) : K := quantity.gradient.entry id

/-- A function of a quantity, by the function's value and slope there. -/
def chain (quantity : FirstOrder K) (value slope : K) : FirstOrder K :=
  ⟨value, quantity.gradient.scaled slope⟩

/-- The sum of two quantities. -/
def add (left right : FirstOrder K) : FirstOrder K :=
  ⟨left.value + right.value, left.gradient.combine 1 right.gradient 1⟩

/-- The difference of two quantities. -/
def sub (left right : FirstOrder K) : FirstOrder K :=
  ⟨left.value - right.value, left.gradient.combine 1 right.gradient Scalar.minusOne⟩

/-- The product of two quantities. -/
def mul (left right : FirstOrder K) : FirstOrder K :=
  ⟨left.value * right.value, left.gradient.combine right.value right.gradient left.value⟩

/-- The quotient of two quantities. -/
def div (left right : FirstOrder K) : FirstOrder K :=
  ⟨left.value / right.value,
    left.gradient.combine (1 / right.value) right.gradient
      (-left.value / (right.value * right.value))⟩

/-- The negation of a quantity. -/
def neg (quantity : FirstOrder K) : FirstOrder K :=
  ⟨-quantity.value, quantity.gradient.scaled Scalar.minusOne⟩

/-- A multiple of a quantity. -/
def scale (quantity : FirstOrder K) (factor : K) : FirstOrder K :=
  ⟨quantity.value * factor, quantity.gradient.scaled factor⟩

/-- A built-in function of a quantity. -/
def apply (function : UnaryFunction) (quantity : FirstOrder K) : FirstOrder K :=
  quantity.chain (Scalar.unary function quantity.value) (Scalar.slope function quantity.value)

/-- The power rule. With an exponent free of variables the rule is that of a
monomial, and the power is constant when its base is or its exponent is zero. -/
def power (base exponent : FirstOrder K) : FirstOrder K :=
  let x := base.value
  let p := exponent.value
  let value := Scalar.power x p
  if exponent.gradient.isEmpty then
    if p == 0 || base.gradient.isEmpty then constant value
    else base.chain value (p * Scalar.power x (p - 1))
  else
    ⟨value, base.gradient.combine (p * Scalar.power x (p - 1)) exponent.gradient
      (value * Scalar.ln x)⟩

/-- Whether the value and all derivatives that are stored are finite. -/
def isFinite (quantity : FirstOrder K) : Bool :=
  Scalar.isFinite quantity.value && quantity.gradient.allEntries Scalar.isFinite

/-- Whether the value and all derivatives that are stored are zero. -/
def isZero (quantity : FirstOrder K) : Bool :=
  quantity.value == 0 && quantity.gradient.allEntries (· == 0)

instance : Numeric K (FirstOrder K) where
  zero := constant 0
  one := constant 1
  add := add
  sub := sub
  mul := mul
  div := div
  neg := neg
  constant := constant
  seed := seed
  value := value
  scale := scale
  apply := apply
  power := power
  isFinite := isFinite
  isZero := isZero

/-- Equality of scalars, component by component. -/
instance : BEq (FirstOrder K) where
  beq left right :=
    left.value == right.value && left.gradient.toList == right.gradient.toList

end FirstOrder

end MixedInteger
