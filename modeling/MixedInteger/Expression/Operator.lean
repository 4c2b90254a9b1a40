import MixedInteger.Expression.Degree

/-! # Operators

The operators of an expression graph: how many children each takes, its local
evaluation rule in any numeric domain, and its local degree rule. Children are
ordered; the first child of a division is the dividend and the first child of a
power is the base.
-/

namespace MixedInteger

/-- What an operator node computes from its children. -/
inductive Operator (K : Type) where
  | negation
  | sum
  | linear (coefficients : List K) (constant : K)
  | product
  | division
  | power
  | unary (function : UnaryFunction)
  deriving DecidableEq, Repr

/-- The entry of a sequence at an index that is claimed to be inside it. -/
def entryAt {α : Type} (entries : List α) (index : Nat) : Except Violation α :=
  match entries[index]? with
  | some entry => .ok entry
  | none => .error (.indexOutOfBounds entries.length index)

namespace Operator

variable {K A : Type}

def name : Operator K → String
  | negation => "negation"
  | sum => "sum"
  | linear _ _ => "linear"
  | product => "product"
  | division => "division"
  | power => "power"
  | unary function => function.name

/-- How many children an operator has. -/
def arity : Operator K → Arity
  | negation => .exactly 1
  | sum => .atLeast 1
  | linear coefficients _ => .exactly coefficients.length
  | product => .exactly 2
  | division => .exactly 2
  | power => .exactly 2
  | unary _ => .exactly 1

/-- The local evaluation rule, on the values of the children in order. An
operator is not applied to a number of values it does not take. -/
def apply [Numeric K A] : Operator K → List A → Except Violation A
  | negation, [x] => .ok (-x)
  | sum, x :: xs => .ok ((x :: xs).foldl (· + ·) 0)
  | linear coefficients constant, args =>
      if args.length = coefficients.length then
        .ok ((args.zip coefficients).foldl
          (fun total term => total + Numeric.scale term.1 term.2) (Numeric.constant constant))
      else .error (.argumentCount (linear coefficients constant).name args.length)
  | product, [x, y] => .ok (x * y)
  | division, [x, y] => .ok (x / y)
  | power, [x, y] => .ok (Numeric.power x y)
  | unary function, [x] => .ok (Numeric.apply function x)
  | operator, args => .error (.argumentCount operator.name args.length)

/-- An operator has a value exactly on the numbers of arguments it takes. -/
theorem apply_eq_error_iff [Numeric K A] (operator : Operator K) (args : List A)
    (broken : Violation) :
    operator.apply args = .error broken ↔
      operator.arity.accepts args.length = false ∧
        .argumentCount operator.name args.length = broken := by
  rcases args with _ | ⟨x, _ | ⟨y, _ | ⟨z, rest⟩⟩⟩ <;> cases operator <;>
    simp only [apply, arity, Arity.accepts] <;> try split
  all_goals simp_all

/-- The degree of a power. A constant to a constant is constant; otherwise the
exponent has to be a constant node that holds a whole number. -/
def powerDegree [Scalar K] (base exponent : Degree) (constantExponent : Option K) : Degree :=
  if base = .known 0 ∧ exponent = .known 0 then .known 0
  else
    match constantExponent.bind Scalar.wholeExponent? with
    | some k => base.power k
    | none => .unknown

/-- The local degree rule, on the degrees of the children in order. Children of
a linear form with a zero coefficient do not count. The exponent is given when
the second child is a constant node. -/
def degree [Scalar K] (operator : Operator K) (children : List Degree)
    (constantExponent : Option K) : Except Violation Degree :=
  match operator with
  | negation => entryAt children 0
  | sum => return children.foldl Degree.max (.known 0)
  | linear coefficients _ =>
      return ((children.zip coefficients).filter fun term => !(term.2 == 0)).foldl
        (fun degree term => degree.max term.1) (.known 0)
  | product => return (← entryAt children 0).product (← entryAt children 1)
  | division => do
      let divisor ← entryAt children 1
      if divisor = .known 0 then entryAt children 0 else return .unknown
  | power => return powerDegree (← entryAt children 0) (← entryAt children 1) constantExponent
  | unary _ => return if (← entryAt children 0) = .known 0 then .known 0 else .unknown

end Operator

end MixedInteger
