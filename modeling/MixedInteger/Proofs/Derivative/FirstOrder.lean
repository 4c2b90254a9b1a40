import MixedInteger.Proofs.Derivative.Formula
import MixedInteger.Proofs.Derivative.Sparse
import MixedInteger.Derivative.FirstOrder

/-! # First derivatives

Every operation on first-order quantities is described by the derivatives of its
result. With exact scalars these are the textbook rules, whatever branch an
operation takes, so evaluation finds the value of an expression and its gradient
(`Graph.eval_firstOrder`). Nothing is assumed about powers, logarithms and unary
functions.
-/

namespace MixedInteger

variable {K : Type}

namespace FirstOrder

/-- Every branch of the power rule has the same value. -/
theorem value_power [Scalar K] (left right : FirstOrder K) :
    (left.power right).value = Scalar.power left.value right.value := by
  unfold power
  dsimp only
  split
  · split <;> rfl
  · rfl

variable [ExactScalar K] {quantity left right : FirstOrder K}

/-- A quantity that stores no derivatives has none. -/
theorem derivative_of_isEmpty (empty : quantity.gradient.isEmpty = true) (i : VariableId) :
    quantity.derivative i = 0 := by
  rw [derivative, Std.ExtTreeMap.isEmpty_iff.mp empty]
  exact Sparse.entry_empty i

theorem derivative_constant (value : K) (i : VariableId) : (constant value).derivative i = 0 :=
  Sparse.entry_empty i

theorem derivative_seed (id i : VariableId) (value : K) :
    (seed id value).derivative i = if id = i then 1 else 0 :=
  Sparse.entry_insert_empty id i 1

/-- The chain rule. -/
theorem derivative_chain (quantity : FirstOrder K) (value slope : K) (i : VariableId) :
    (quantity.chain value slope).derivative i = quantity.derivative i * slope :=
  Sparse.entry_scaled ..

/-- A factor goes into the derivatives. -/
theorem derivative_scale (quantity : FirstOrder K) (factor : K) (i : VariableId) :
    (quantity.scale factor).derivative i = quantity.derivative i * factor :=
  Sparse.entry_scaled ..

/-- Derivatives of a negation are negated. -/
theorem derivative_neg (quantity : FirstOrder K) (i : VariableId) :
    (-quantity).derivative i = -quantity.derivative i := by
  refine (Sparse.entry_scaled ..).trans ?_
  rw [Scalar.minusOne_eq, mul_neg_one]
  rfl

/-- Derivatives are additive. -/
theorem derivative_add (left right : FirstOrder K) (i : VariableId) :
    (left + right).derivative i = left.derivative i + right.derivative i := by
  refine (Sparse.entry_combine ..).trans ?_
  rw [mul_one, one_mul]
  rfl

/-- The product rule. -/
theorem derivative_mul (left right : FirstOrder K) (i : VariableId) :
    (left * right).derivative i =
      left.derivative i * right.value + left.value * right.derivative i :=
  Sparse.entry_combine ..

/-- The quotient rule, written with the two partial derivatives of a quotient. -/
theorem derivative_div (left right : FirstOrder K) (i : VariableId) :
    (left / right).derivative i =
      left.derivative i * (1 / right.value) +
        -left.value / (right.value * right.value) * right.derivative i :=
  Sparse.entry_combine ..

/-- The branches for an exponent without derivatives agree with the general rule:
what they leave out is a product with zero. -/
theorem derivative_power (left right : FirstOrder K) (i : VariableId) :
    (left.power right).derivative i =
      left.derivative i * (right.value * Scalar.power left.value (right.value - 1)) +
        Scalar.power left.value right.value * Scalar.ln left.value * right.derivative i := by
  unfold power
  dsimp only
  split
  · rename_i free
    rw [derivative_of_isEmpty free, mul_zero, add_zero]
    split
    · rename_i trivialPower
      rw [derivative_constant]
      rcases Bool.or_eq_true_iff.mp trivialPower with zero | empty
      · rw [beq_iff_eq.mp zero, zero_mul, mul_zero]
      · rw [derivative_of_isEmpty empty, zero_mul]
    · exact derivative_chain ..
  · exact Sparse.entry_combine ..

/-- Whether a quantity holds the value of a formula at a point, with its partial
derivatives. -/
structure Represents (point : VariableId → K) (quantity : FirstOrder K) (formula : Formula K) :
    Prop where
  value : quantity.value = formula.eval point
  derivative : ∀ i, quantity.derivative i = (formula.derivative i).eval point

namespace Represents

variable {point : VariableId → K} {f g : Formula K}

/-- A constant quantity represents its formula. -/
theorem constant (value : K) : (FirstOrder.constant value).Represents point (.constant value) where
  value := rfl
  derivative := derivative_constant value

/-- A seeded variable represents itself. -/
theorem seed (id : VariableId) : (FirstOrder.seed id (point id)).Represents point (.leaf id) where
  value := rfl
  derivative i := derivative_seed id i (point id)

/-- A negation represents the negated formula. -/
theorem neg (represents : quantity.Represents point f) : (-quantity).Represents point (.neg f) where
  value := congrArg Neg.neg represents.value
  derivative i := by
    rw [derivative_neg, represents.derivative]
    rfl

/-- A sum represents the sum of the formulas. -/
theorem add (first : left.Represents point f) (second : right.Represents point g) :
    (left + right).Represents point (.add f g) where
  value := congrArg₂ HAdd.hAdd first.value second.value
  derivative i := by
    rw [derivative_add, first.derivative, second.derivative]
    rfl

/-- A product represents the product of the formulas. -/
theorem mul (first : left.Represents point f) (second : right.Represents point g) :
    (left * right).Represents point (.mul f g) where
  value := congrArg₂ HMul.hMul first.value second.value
  derivative i := by
    rw [derivative_mul, first.value, second.value, first.derivative, second.derivative]
    rfl

/-- In a field that divides by zero to zero both sides of the quotient rule vanish
there. -/
theorem div (first : left.Represents point f) (second : right.Represents point g) :
    (left / right).Represents point (.div f g) where
  value := congrArg₂ HDiv.hDiv first.value second.value
  derivative i := by
    rw [derivative_div, first.value, second.value, first.derivative, second.derivative]
    simp only [Formula.derivative, Formula.eval]
    by_cases zero : g.eval point = 0
    · simp only [zero, mul_zero, div_zero, zero_mul, add_zero]
    · field_simp

/-- A multiple represents the product with a constant. -/
theorem scale (represents : quantity.Represents point f) (factor : K) :
    (quantity.scale factor).Represents point (.mul f (.constant factor)) where
  value := congrArg (· * factor) represents.value
  derivative i := by
    rw [derivative_scale, represents.derivative]
    simp only [Formula.derivative, Formula.eval, mul_zero, add_zero]

/-- A function of a quantity represents the function of its formula. -/
theorem apply (represents : quantity.Represents point f) (function : UnaryFunction) :
    (FirstOrder.apply function quantity).Represents point (.apply function 0 f) where
  value := congrArg (Scalar.unary function) represents.value
  derivative i := by
    rw [FirstOrder.apply, derivative_chain, represents.value, represents.derivative, mul_comm]
    rfl

/-- A power represents the power of the formulas, also under a variable exponent. -/
theorem power (base : left.Represents point f) (exponent : right.Represents point g) :
    (left.power right).Represents point (.power f g) where
  value := by
    rw [value_power, base.value, exponent.value]
    rfl
  derivative i := by
    rw [derivative_power, base.value, exponent.value, base.derivative, exponent.derivative]
    simp only [Formula.derivative, Formula.eval, ← sub_eq_add_neg]
    rw [mul_comm ((f.derivative i).eval point)]

end Represents

/-- Evaluation respects the values and the derivatives of formulas. -/
theorem respected_represents (point : VariableId → K) :
    Formula.Respected (fun _ : FirstOrder K => True) (Represents point) where
  zero := .constant 0
  constant := .constant
  neg := .neg
  add := .add
  mul := .mul
  div := .div
  scale := .scale
  apply := .apply
  power base exponent _ := base.power exponent

end FirstOrder

namespace Graph

variable [ExactScalar K] {graph : Graph K} {root : NodeIdx}

/-- The value and the gradient that an evaluation with first derivatives finds are
those of the expression that the root unfolds to, at every seeded point that
binds the variables of the root. The derivative by a variable that does not occur
below the root is zero. -/
theorem eval_firstOrder (built : graph.Built) (inside : root < graph.size) {point : List K}
    (bound : ∀ id, graph.Occurs root id → id < point.length) :
    ∃ result : FirstOrder K,
      graph.eval root (Assignment.seeded point) { checkFinite := false } = .ok result ∧
      graph.eval root (Assignment.seeded point) { checkFinite := false } = .ok result.value ∧
      result.value = (graph.formula root).eval (point.getD · 0) ∧
      (∀ id, result.derivative id = ((graph.formula root).derivative id).eval (point.getD · 0)) ∧
      ∀ id, ¬ graph.Occurs root id → result.derivative id = 0 := by
  have wellFormed := built.wellFormed
  have represents := (FirstOrder.respected_represents (point.getD · 0)).interpret wellFormed inside
    (fun id _ => .seed id) (fun _ _ _ _ _ => trivial) Relation.ReflTransGen.refl
  have plain := (Formula.Respected.value (point.getD · 0)).interpret wellFormed inside
    (fun _ _ => rfl) (fun _ _ _ _ _ => trivial) Relation.ReflTransGen.refl
  refine ⟨_, eval_seeded wellFormed inside bound, ?_, represents.value, represents.derivative,
    fun id absent => ?_⟩
  · rw [eval_seeded wellFormed inside bound]
    exact congrArg Except.ok (plain.trans represents.value.symm)
  · exact (represents.derivative id).trans
      (derivative_formula_of_not_occurs wellFormed inside absent (point.getD · 0))

/-- The graph of `x0 ^ x1 / x1`, in which the exponent is shared. -/
noncomputable def powerRatio : Graph ℝ where
  id := ⟨0, 0⟩
  nodes := #[
    { uid := ⟨0⟩, idx := some 0, graph := some ⟨0, 0⟩, kind := .leaf 0 },
    { uid := ⟨1⟩, idx := some 1, graph := some ⟨0, 0⟩, kind := .leaf 1 },
    { uid := ⟨2⟩, idx := some 2, graph := some ⟨0, 0⟩, kind := .operator .power [0, 1] },
    { uid := ⟨3⟩, idx := some 3, graph := some ⟨0, 0⟩, kind := .operator .division [2, 1] }]
  depths := #[0, 0, 1, 2]

/-- The example is built by insertions. -/
theorem built_powerRatio : powerRatio.Built := by
  let base : Node ℝ := { uid := ⟨0⟩, kind := .leaf 0 }
  let exponent : Node ℝ := { uid := ⟨1⟩, kind := .leaf 1 }
  let power : Node ℝ := { uid := ⟨2⟩, kind := .operator .power [0, 1] }
  let ratio : Node ℝ := { uid := ⟨3⟩, kind := .operator .division [2, 1] }
  have first : Built _ := (Built.empty ⟨0, 0⟩ none).insert (rfl : base.kind.checkArity = _) rfl
  have second : Built _ := first.insert (rfl : exponent.kind.checkArity = _) rfl
  have third : Built _ := second.insert (rfl : power.kind.checkArity = _) rfl
  exact third.insert (rfl : ratio.kind.checkArity = _) rfl

/-- Only the two variables of the point occur in the example. -/
theorem occurs_powerRatio {id : VariableId} (occurs : powerRatio.Occurs 3 id) :
    id < [(2 : ℝ), 3].length := by
  obtain ⟨idx, -, known⟩ := occurs
  rcases idx with _ | _ | _ | _ | idx <;> cases known <;> decide

/-- The example has the value and the gradient of its formula, and a zero for a variable that does
not occur. -/
theorem eval_firstOrder_powerRatio :
    powerRatio.Built ∧ 3 < powerRatio.size ∧
      (∀ id, powerRatio.Occurs 3 id → id < [(2 : ℝ), 3].length) ∧ ¬ powerRatio.Occurs 3 2 ∧
      ∃ result : FirstOrder ℝ,
        powerRatio.eval 3 (Assignment.seeded [2, 3]) { checkFinite := false } = .ok result ∧
        (∀ id, result.derivative id =
          ((powerRatio.formula 3).derivative id).eval ([2, 3].getD · 0)) ∧
        result.derivative 2 = 0 := by
  have inside : 3 < powerRatio.size := by decide
  have absent : ¬ powerRatio.Occurs 3 2 := fun occurs =>
    absurd (occurs_powerRatio occurs) (by decide)
  obtain ⟨result, seeded, -, -, derivative, zero⟩ :=
    eval_firstOrder built_powerRatio inside fun id => occurs_powerRatio
  exact ⟨built_powerRatio, inside, fun id => occurs_powerRatio, absent, result, seeded, derivative,
    zero 2 absent⟩

end Graph

end MixedInteger
