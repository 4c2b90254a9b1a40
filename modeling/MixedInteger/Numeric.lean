import MixedInteger.Scalar

/-! # Numeric domains

An expression graph is evaluated in a numeric domain over its scalars: plain
values, values with first derivatives, or values with first and second
derivatives. The operator rules are written once against this interface.
-/

namespace MixedInteger

/-- The position of a variable in its problem's variable list. Assignments and
derivative maps are keyed by it. -/
abbrev VariableId := Nat

def VariableId.text (id : VariableId) : String := s!"x{id}"

/-- A domain that expressions over the scalars `K` can be evaluated in. -/
class Numeric (K : outParam Type) (A : Type)
    extends Zero A, One A, Add A, Sub A, Mul A, Div A, Neg A where
  /-- A quantity that depends on no variable. -/
  constant : K → A
  /-- An independent variable with its current value. -/
  seed : VariableId → K → A
  value : A → K
  scale : A → K → A
  apply : UnaryFunction → A → A
  power : A → A → A
  isFinite : A → Bool
  isZero : A → Bool

/-- Scalars themselves track values only. -/
instance {K : Type} [Scalar K] : Numeric K K where
  constant value := value
  seed _ value := value
  value quantity := quantity
  scale quantity factor := quantity * factor
  apply := Scalar.unary
  power := Scalar.power
  isFinite := Scalar.isFinite
  isZero quantity := quantity == 0

end MixedInteger
