import Mathlib.Tactic.FieldSimp
import MixedInteger.Proofs.Derivative.Formula
import MixedInteger.Proofs.Derivative.Sparse
import MixedInteger.Derivative.SecondOrder

/-! # Second derivatives

Every operation on second-order quantities is described by the derivatives of its
result. With exact scalars these are the textbook rules, applied twice, so
evaluation finds the value of an expression, its gradient and its Hessian
(`Graph.eval_secondOrder`).
-/

namespace MixedInteger

variable {K : Type}

namespace SecondOrder

/-- A quantity is a constant when it stores no derivatives at all. -/
theorem isConstant_iff {quantity : SecondOrder K} :
    quantity.isConstant = true ↔ quantity.gradient = ∅ ∧ quantity.hessian = ∅ := by
  simp only [isConstant, Bool.and_eq_true, Std.ExtTreeMap.isEmpty_iff]

theorem isConstant_constant (value : K) : (constant value).isConstant = true := rfl

section Constant

variable [Scalar K] {quantity left right : SecondOrder K}

/-- The value of a chained function is the one that is handed in. -/
theorem value_chain (quantity : SecondOrder K) (value slope curvature : K) :
    (quantity.chain value slope curvature).value = value := by
  unfold chain
  split <;> rfl

/-- A multiple of a constant is a constant. -/
theorem isConstant_scale (constant : quantity.isConstant = true) (factor : K) :
    (quantity.scale factor).isConstant = true := by
  obtain ⟨gradient, hessian⟩ := isConstant_iff.mp constant
  rw [isConstant_iff, scale, gradient, hessian]
  exact ⟨Sparse.scaled_empty factor, Sparse.scaled_empty factor⟩

/-- A sum of constants is a constant. -/
theorem isConstant_add (leftConstant : left.isConstant = true)
    (rightConstant : right.isConstant = true) : (left + right).isConstant = true := by
  obtain ⟨leftGradient, leftHessian⟩ := isConstant_iff.mp leftConstant
  obtain ⟨rightGradient, rightHessian⟩ := isConstant_iff.mp rightConstant
  change (left.add right).isConstant = true
  rw [isConstant_iff, add, leftGradient, leftHessian, rightGradient, rightHessian]
  exact ⟨Sparse.combine_empty 1 1, Sparse.combine_empty 1 1⟩

/-- A product of constants is a constant. -/
theorem isConstant_mul (leftConstant : left.isConstant = true)
    (rightConstant : right.isConstant = true) : (left * right).isConstant = true := by
  obtain ⟨leftGradient, leftHessian⟩ := isConstant_iff.mp leftConstant
  obtain ⟨rightGradient, rightHessian⟩ := isConstant_iff.mp rightConstant
  change (left.mul right).isConstant = true
  rw [isConstant_iff, mul, leftGradient, leftHessian, rightGradient, rightHessian,
    Sparse.combine_empty, Sparse.combine_empty]
  exact ⟨rfl, Hessian.addOuter_empty 1⟩

/-- The value of a quotient goes through the reciprocal in either branch. -/
theorem value_div_eq_mul (left right : SecondOrder K) :
    (left.div right).value = left.value * (1 / right.value) := by
  unfold div
  split
  · rfl
  · exact congrArg (left.value * ·) (value_chain ..)

/-- A function of a constant is a constant. -/
theorem isConstant_chain (constant : quantity.isConstant = true) (value slope curvature : K) :
    (quantity.chain value slope curvature).isConstant = true := by
  rw [chain, if_pos constant]
  rfl

/-- A ratio of constants is a constant. -/
theorem isConstant_div (leftConstant : left.isConstant = true)
    (rightConstant : right.isConstant = true) : (left / right).isConstant = true := by
  change (left.div right).isConstant = true
  rw [div, if_pos rightConstant]
  exact isConstant_scale leftConstant _

/-- A power of constants is a constant, whichever of its cases applies. -/
theorem isConstant_power (leftConstant : left.isConstant = true)
    (rightConstant : right.isConstant = true) : (left.power right).isConstant = true := by
  unfold power
  rw [if_pos rightConstant]
  dsimp only
  split
  · rfl
  · split
    · exact leftConstant
    · exact isConstant_chain leftConstant _ _ _

/-- Without variables every operation gives a constant. -/
theorem respected_isConstant :
    Formula.Respected (A := SecondOrder K) (fun _ => True)
      (fun quantity _ => quantity.isConstant = true) where
  zero := rfl
  constant _ := rfl
  neg constant := isConstant_scale constant _
  add := isConstant_add
  mul := isConstant_mul
  div := isConstant_div
  scale := isConstant_scale
  apply constant _ := isConstant_chain constant _ _ _
  power left right _ := isConstant_power left right

end Constant

variable [ExactScalar K] {quantity left right : SecondOrder K}

/-- The first derivatives of a constant vanish. -/
theorem derivative_of_isConstant (constant : quantity.isConstant = true) (i : VariableId) :
    quantity.derivative i = 0 := by
  rw [derivative, (isConstant_iff.mp constant).1]
  exact Sparse.entry_empty i

/-- The second derivatives of a constant vanish. -/
theorem secondDerivative_of_isConstant (constant : quantity.isConstant = true)
    (i j : VariableId) : quantity.secondDerivative i j = 0 := by
  rw [secondDerivative, (isConstant_iff.mp constant).2]
  exact Sparse.entry_empty _

theorem derivative_seed (id i : VariableId) (value : K) :
    (seed id value).derivative i = if id = i then 1 else 0 :=
  Sparse.entry_insert_empty id i 1

theorem secondDerivative_seed (id i j : VariableId) (value : K) :
    (seed id value).secondDerivative i j = 0 :=
  Sparse.entry_empty (Cell.lower i j)

/-- First derivatives are additive. -/
theorem derivative_add (left right : SecondOrder K) (i : VariableId) :
    (left + right).derivative i = left.derivative i + right.derivative i := by
  refine (Sparse.entry_combine ..).trans ?_
  rw [mul_one, one_mul]
  rfl

/-- Second derivatives are additive. -/
theorem secondDerivative_add (left right : SecondOrder K) (i j : VariableId) :
    (left + right).secondDerivative i j =
      left.secondDerivative i j + right.secondDerivative i j := by
  refine (Sparse.entry_combine ..).trans ?_
  rw [mul_one, one_mul]
  rfl

/-- A factor goes into the first derivatives. -/
theorem derivative_scale (quantity : SecondOrder K) (factor : K) (i : VariableId) :
    (quantity.scale factor).derivative i = quantity.derivative i * factor :=
  Sparse.entry_scaled ..

/-- A factor goes into the second derivatives. -/
theorem secondDerivative_scale (quantity : SecondOrder K) (factor : K) (i j : VariableId) :
    (quantity.scale factor).secondDerivative i j = quantity.secondDerivative i j * factor :=
  Sparse.entry_scaled ..

/-- The product rule for first derivatives. -/
theorem derivative_mul (left right : SecondOrder K) (i : VariableId) :
    (left.mul right).derivative i =
      left.derivative i * right.value + left.value * right.derivative i :=
  Sparse.entry_combine ..

/-- The product rule for second derivatives, with both mixed terms. -/
theorem secondDerivative_mul (left right : SecondOrder K) (i j : VariableId) :
    (left.mul right).secondDerivative i j =
      left.secondDerivative i j * right.value + left.value * right.secondDerivative i j +
        (left.derivative i * right.derivative j + left.derivative j * right.derivative i) := by
  refine (Hessian.symmetricEntry_addOuter ..).trans ?_
  rw [Hessian.symmetricEntry, Sparse.entry_combine, one_mul]
  rfl

/-- The chain rule for first derivatives. -/
theorem derivative_chain (quantity : SecondOrder K) (value slope curvature : K) (i : VariableId) :
    (quantity.chain value slope curvature).derivative i = quantity.derivative i * slope := by
  unfold chain
  split
  · rename_i constant
    rw [derivative_of_isConstant constant, zero_mul]
    exact derivative_of_isConstant (isConstant_constant value) i
  · exact Sparse.entry_scaled ..

/-- The outer product counts both orders of a pair of variables, which its factor
one half makes good. -/
theorem secondDerivative_chain [ExactPower K] (quantity : SecondOrder K)
    (value slope curvature : K) (i j : VariableId) :
    (quantity.chain value slope curvature).secondDerivative i j =
      quantity.secondDerivative i j * slope +
        curvature * (quantity.derivative i * quantity.derivative j) := by
  unfold chain
  split
  · rename_i constant
    rw [derivative_of_isConstant constant, secondDerivative_of_isConstant constant, zero_mul,
      zero_mul, mul_zero, add_zero]
    exact secondDerivative_of_isConstant (isConstant_constant value) i j
  · have outer : Scalar.half * curvature * (quantity.derivative i * quantity.derivative j +
        quantity.derivative j * quantity.derivative i) =
          curvature * (quantity.derivative i * quantity.derivative j) := by
      calc Scalar.half * curvature * (quantity.derivative i * quantity.derivative j +
            quantity.derivative j * quantity.derivative i)
          = Scalar.half * Scalar.two *
              (curvature * (quantity.derivative i * quantity.derivative j)) := by
            rw [Scalar.two_eq]
            ring
        _ = curvature * (quantity.derivative i * quantity.derivative j) := by
            rw [Scalar.half_mul_two, one_mul]
    refine (Hessian.symmetricEntry_addOuter ..).trans ?_
    rw [Hessian.symmetricEntry, Sparse.entry_scaled]
    exact congrArg (quantity.secondDerivative i j * slope + ·) outer

/-- The value of a ratio is the ratio of the values. -/
theorem value_div (left right : SecondOrder K) :
    (left.div right).value = left.value / right.value :=
  (value_div_eq_mul left right).trans (mul_one_div left.value right.value)

/-- The quotient rule for first derivatives, written as a product with the reciprocal. -/
theorem derivative_div (left right : SecondOrder K) (i : VariableId) :
    (left.div right).derivative i =
      left.derivative i * (1 / right.value) +
        left.value * (right.derivative i * (-1 / (right.value * right.value))) := by
  unfold div
  split
  · rename_i constant
    rw [derivative_scale, derivative_of_isConstant constant, zero_mul, mul_zero, add_zero]
  · rw [derivative_mul, recip, value_chain, derivative_chain]
    rfl

/-- A constant divisor leaves only the first term, so both branches of a division
have these second derivatives. -/
theorem secondDerivative_div [ExactPower K] (left right : SecondOrder K) (i j : VariableId) :
    (left.div right).secondDerivative i j =
      left.secondDerivative i j * (1 / right.value) +
        left.value * (right.secondDerivative i j * (-1 / (right.value * right.value)) +
          (1 + 1) / (right.value * right.value * right.value) *
            (right.derivative i * right.derivative j)) +
        (left.derivative i * (right.derivative j * (-1 / (right.value * right.value))) +
          left.derivative j * (right.derivative i * (-1 / (right.value * right.value)))) := by
  unfold div
  split
  · rename_i constant
    rw [secondDerivative_scale, derivative_of_isConstant constant,
      derivative_of_isConstant constant, secondDerivative_of_isConstant constant]
    ring
  · rw [secondDerivative_mul, recip, value_chain, derivative_chain, derivative_chain,
      secondDerivative_chain]
    rfl

/-- A power with a constant exponent is a constant, the base, or follows the rule of
a monomial. The curvature that is given for a square is that of the rule. -/
theorem power_cases [ExactPower K] (left : SecondOrder K) (constant : right.isConstant = true) :
    right.value = 0 ∧
        left.power right = SecondOrder.constant (Scalar.power left.value right.value) ∨
      right.value = 1 ∧ left.power right = left ∨
      left.power right =
        left.chain (Scalar.power left.value right.value)
          (right.value * Scalar.power left.value (right.value - 1))
          (right.value * (right.value - 1) *
            Scalar.power left.value (right.value - Scalar.two)) := by
  unfold power
  rw [if_pos constant]
  dsimp only
  split
  · rename_i zero
    exact Or.inl ⟨beq_iff_eq.mp zero, rfl⟩
  · split
    · rename_i one
      exact Or.inr (Or.inl ⟨beq_iff_eq.mp one, rfl⟩)
    · refine Or.inr (Or.inr (congrArg (left.chain _ _) ?_))
      split
      · rename_i square
        rw [beq_iff_eq.mp square, sub_self, ExactPower.power_zero, Scalar.two_eq]
        ring
      · rfl

/-- Under a constant exponent the value of a power is the power of the values. -/
theorem value_power [ExactPower K] (left : SecondOrder K) (constant : right.isConstant = true) :
    (left.power right).value = Scalar.power left.value right.value := by
  rcases power_cases left constant with ⟨-, result⟩ | ⟨one, result⟩ | result
  · rw [result]
    rfl
  · rw [result, one, ExactPower.power_one]
  · rw [result, value_chain]

/-- The power rule for first derivatives, under a constant exponent. -/
theorem derivative_power [ExactPower K] (left : SecondOrder K)
    (constant : right.isConstant = true) (i : VariableId) :
    (left.power right).derivative i =
      left.derivative i * (right.value * Scalar.power left.value (right.value - 1)) := by
  rcases power_cases left constant with ⟨zero, result⟩ | ⟨one, result⟩ | result
  · rw [result, zero, zero_mul, mul_zero]
    exact derivative_of_isConstant (isConstant_constant _) i
  · rw [result, one, sub_self, ExactPower.power_zero, mul_one, mul_one]
  · rw [result, derivative_chain]

/-- The power rule for second derivatives, under a constant exponent. -/
theorem secondDerivative_power [ExactPower K] (left : SecondOrder K)
    (constant : right.isConstant = true) (i j : VariableId) :
    (left.power right).secondDerivative i j =
      left.secondDerivative i j * (right.value * Scalar.power left.value (right.value - 1)) +
        right.value * (right.value - 1) * Scalar.power left.value (right.value - Scalar.two) *
          (left.derivative i * left.derivative j) := by
  rcases power_cases left constant with ⟨zero, result⟩ | ⟨one, result⟩ | result
  · rw [result, zero, zero_mul, mul_zero, zero_mul, zero_mul, zero_mul, add_zero]
    exact secondDerivative_of_isConstant (isConstant_constant _) i j
  · rw [result, one, sub_self, ExactPower.power_zero, mul_one, mul_one, mul_zero, zero_mul,
      zero_mul, add_zero]
  · rw [result, secondDerivative_chain]

/-- Whether a quantity holds the value of a formula at a point, with its first and
second partial derivatives. -/
structure Represents (point : VariableId → K) (quantity : SecondOrder K) (formula : Formula K) :
    Prop where
  value : quantity.value = formula.eval point
  derivative : ∀ i, quantity.derivative i = (formula.derivative i).eval point
  secondDerivative : ∀ i j,
    quantity.secondDerivative i j = ((formula.derivative i).derivative j).eval point

namespace Represents

variable {point : VariableId → K} {f g : Formula K}

/-- A constant quantity represents its formula. -/
theorem constant (value : K) : (SecondOrder.constant value).Represents point (.constant value) where
  value := rfl
  derivative := derivative_of_isConstant rfl
  secondDerivative := secondDerivative_of_isConstant rfl

/-- A seeded variable represents itself. -/
theorem seed (id : VariableId) : (SecondOrder.seed id (point id)).Represents point (.leaf id) where
  value := rfl
  derivative i := derivative_seed id i (point id)
  secondDerivative i j := secondDerivative_seed id i j (point id)

/-- A sum represents the sum of the formulas. -/
theorem add (first : left.Represents point f) (second : right.Represents point g) :
    (left + right).Represents point (.add f g) where
  value := congrArg₂ HAdd.hAdd first.value second.value
  derivative i := by
    rw [derivative_add, first.derivative, second.derivative]
    rfl
  secondDerivative i j := by
    rw [secondDerivative_add, first.secondDerivative, second.secondDerivative]
    rfl

/-- A multiple represents the product with a constant. -/
theorem scale (represents : quantity.Represents point f) (factor : K) :
    (quantity.scale factor).Represents point (.mul f (.constant factor)) where
  value := congrArg (· * factor) represents.value
  derivative i := by
    simp only [derivative_scale, represents.derivative, Formula.derivative, Formula.eval, mul_zero,
      add_zero]
  secondDerivative i j := by
    simp only [secondDerivative_scale, represents.secondDerivative, Formula.derivative,
      Formula.eval, mul_zero, add_zero]

/-- A negation represents the negated formula. -/
theorem neg (represents : quantity.Represents point f) : (-quantity).Represents point (.neg f) where
  value := by
    change quantity.value * Scalar.minusOne = -f.eval point
    rw [represents.value, Scalar.minusOne_eq, mul_neg_one]
  derivative i := by
    change (quantity.scale Scalar.minusOne).derivative i = -(f.derivative i).eval point
    rw [derivative_scale, represents.derivative, Scalar.minusOne_eq, mul_neg_one]
  secondDerivative i j := by
    change (quantity.scale Scalar.minusOne).secondDerivative i j =
      -((f.derivative i).derivative j).eval point
    rw [secondDerivative_scale, represents.secondDerivative, Scalar.minusOne_eq, mul_neg_one]

/-- A product represents the product of the formulas. -/
theorem mul (first : left.Represents point f) (second : right.Represents point g) :
    (left * right).Represents point (.mul f g) where
  value := congrArg₂ HMul.hMul first.value second.value
  derivative i := by
    refine (derivative_mul left right i).trans ?_
    rw [first.value, second.value, first.derivative, second.derivative]
    rfl
  secondDerivative i j := by
    refine (secondDerivative_mul left right i j).trans ?_
    simp only [first.value, second.value, first.derivative, second.derivative,
      first.secondDerivative, second.secondDerivative, Formula.derivative, Formula.eval]
    ring

/-- A function of a quantity represents the function of its formula. -/
theorem apply [ExactPower K] (represents : quantity.Represents point f)
    (function : UnaryFunction) :
    (SecondOrder.apply function quantity).Represents point (.apply function 0 f) where
  value := by
    rw [SecondOrder.apply, value_chain, represents.value]
    rfl
  derivative i := by
    rw [SecondOrder.apply, derivative_chain, represents.value, represents.derivative, mul_comm]
    rfl
  secondDerivative i j := by
    rw [SecondOrder.apply, secondDerivative_chain]
    simp only [represents.value, represents.derivative, represents.secondDerivative,
      Formula.derivative, Formula.eval, Scalar.ofOrder]
    ring

/-- In a field that divides by zero to zero both sides of the quotient rule vanish
there. -/
theorem div [ExactPower K] (first : left.Represents point f) (second : right.Represents point g) :
    (left / right).Represents point (.div f g) where
  value := by
    refine (value_div left right).trans ?_
    rw [first.value, second.value]
    rfl
  derivative i := by
    refine (derivative_div left right i).trans ?_
    simp only [first.value, second.value, first.derivative, second.derivative,
      Formula.derivative, Formula.eval]
    by_cases zero : g.eval point = 0
    · simp only [zero, mul_zero, div_zero, add_zero]
    · field_simp
  secondDerivative i j := by
    refine (secondDerivative_div left right i j).trans ?_
    simp only [first.value, second.value, first.derivative, second.derivative,
      first.secondDerivative, second.secondDerivative, Formula.derivative, Formula.eval]
    by_cases zero : g.eval point = 0
    · simp only [zero, mul_zero, zero_mul, div_zero, add_zero]
    · field_simp
      ring

/-- A power under a constant exponent represents the power of the formulas. -/
theorem power [ExactPower K] (base : left.Represents point f)
    (exponent : right.Represents point g) (constant : right.isConstant = true) :
    (left.power right).Represents point (.power f g) := by
  have slope (i : VariableId) : (g.derivative i).eval point = 0 := by
    rw [← exponent.derivative, derivative_of_isConstant constant]
  have curvature (i j : VariableId) : ((g.derivative i).derivative j).eval point = 0 := by
    rw [← exponent.secondDerivative, secondDerivative_of_isConstant constant]
  refine ⟨?_, fun i => ?_, fun i j => ?_⟩
  · rw [value_power left constant, base.value, exponent.value]
    rfl
  · rw [derivative_power left constant, base.value, exponent.value, base.derivative]
    simp only [Formula.derivative, Formula.eval, slope, mul_zero, add_zero, ← sub_eq_add_neg]
    ring
  · have exponents : g.eval point - 1 - 1 = g.eval point - Scalar.two := by
      rw [Scalar.two_eq]
      ring
    rw [secondDerivative_power left constant]
    simp only [base.value, exponent.value, base.derivative, base.secondDerivative,
      Formula.derivative, Formula.eval, slope, curvature, mul_zero, add_zero, zero_mul, zero_add,
      ← sub_eq_add_neg, exponents]
    ring

end Represents

/-- Evaluation respects the values and derivatives of formulas, as long as exponents
are constant. -/
theorem respected_represents [ExactPower K] (point : VariableId → K) :
    Formula.Respected (fun quantity : SecondOrder K => quantity.isConstant = true)
      (Represents point) where
  zero := .constant 0
  constant := .constant
  neg := .neg
  add := .add
  mul := .mul
  div := .div
  scale := .scale
  apply := .apply
  power := .power

end SecondOrder

namespace Graph

open SecondOrder

variable {graph : Graph K} {root : NodeIdx}

/-- Exponents below which no variable occurs are constants. -/
theorem isConstant_exponent [Scalar K] (wellFormed : graph.WellFormed) (inside : root < graph.size)
    (exponents : graph.ConstantExponents root) (point : VariableId → SecondOrder K)
    {idx base exponent : NodeIdx} (reaches : graph.Reaches root idx)
    (known : graph.kind? idx = some (.operator .power [base, exponent])) :
    (graph.interpret (.values point) exponent).isConstant = true := by
  have below : graph.Reaches idx exponent := reaches_child known (by simp)
  have held : exponent < graph.size :=
    Nat.lt_of_le_of_lt (Reaches.le wellFormed (reaches.trans below)) inside
  exact respected_isConstant.interpret wellFormed held
    (fun id occurs => absurd occurs (exponents idx base exponent reaches known id))
    (fun _ _ _ _ _ => trivial) Relation.ReflTransGen.refl

/-- The value, the gradient and the Hessian that an evaluation with second
derivatives finds are those of the expression that the root unfolds to, at every
seeded point that binds the variables of the root. An entry that is not stored is
a derivative that is zero. -/
theorem eval_secondOrder [ExactScalar K] [ExactPower K] (built : graph.Built)
    (inside : root < graph.size) (exponents : graph.ConstantExponents root) {point : List K}
    (bound : ∀ id, graph.Occurs root id → id < point.length) :
    ∃ result : SecondOrder K,
      graph.eval root (Assignment.seeded point) { checkFinite := false } = .ok result ∧
      graph.eval root (Assignment.seeded point) { checkFinite := false } = .ok result.value ∧
      result.value = (graph.formula root).eval (point.getD · 0) ∧
      (∀ i, result.derivative i = ((graph.formula root).derivative i).eval (point.getD · 0)) ∧
      (∀ i j, result.secondDerivative i j =
        (((graph.formula root).derivative i).derivative j).eval (point.getD · 0)) ∧
      (∀ i, result.gradient[i]? = none →
        ((graph.formula root).derivative i).eval (point.getD · 0) = 0) ∧
      ∀ i j, result.hessian[Cell.lower i j]? = none →
        (((graph.formula root).derivative i).derivative j).eval (point.getD · 0) = 0 := by
  have wellFormed := built.wellFormed
  have entry (id : VariableId) (inside : id < point.length) : point[id] = point.getD id 0 := by
    simp [inside]
  let seeds (id : VariableId) : SecondOrder K := SecondOrder.seed id (point.getD id 0)
  have seeded : graph.eval root (Assignment.seeded point) { checkFinite := false } =
      .ok (graph.interpret (.values seeds) root) :=
    eval_eq_interpret wellFormed inside fun id occurs => by
      rw [Assignment.get?_seeded (bound id occurs), entry]
      rfl
  have plain : graph.eval root (Assignment.seeded point) { checkFinite := false } =
      .ok (graph.interpret (.values (point.getD · 0)) root) :=
    eval_eq_interpret wellFormed inside fun id occurs => by
      rw [Assignment.get?_seeded (bound id occurs), entry]
      rfl
  have represents : (graph.interpret (.values seeds) root).Represents (point.getD · 0)
      (graph.formula root) :=
    (respected_represents (point.getD · 0)).interpret wellFormed inside (fun id _ => .seed id)
      (fun _ _ _ => isConstant_exponent wellFormed inside exponents seeds)
      Relation.ReflTransGen.refl
  have value : graph.interpret (.values (point.getD · 0)) root =
      (graph.formula root).eval (point.getD · 0) :=
    (Formula.Respected.value (point.getD · 0)).interpret wellFormed inside (fun _ _ => rfl)
      (fun _ _ _ _ _ => trivial) Relation.ReflTransGen.refl
  refine ⟨_, seeded, ?_, represents.value, represents.derivative, represents.secondDerivative,
    fun i absent => ?_, fun i j absent => ?_⟩
  · rw [plain, value, represents.value]
  · rw [← represents.derivative, SecondOrder.derivative, Sparse.entry_eq_getD, absent]
    rfl
  · rw [← represents.secondDerivative, SecondOrder.secondDerivative, Hessian.symmetricEntry,
      Sparse.entry_eq_getD, absent]
    rfl

/-- The graph of `(x0 * x1) ^ 2 / x1`, in which `x1` is shared. -/
noncomputable def squareRatio : Graph ℝ where
  id := ⟨0, 0⟩
  nodes := #[
    { uid := ⟨0⟩, idx := some 0, graph := some ⟨0, 0⟩, kind := .leaf 0 },
    { uid := ⟨1⟩, idx := some 1, graph := some ⟨0, 0⟩, kind := .leaf 1 },
    { uid := ⟨2⟩, idx := some 2, graph := some ⟨0, 0⟩, kind := .operator .product [0, 1] },
    { uid := ⟨3⟩, idx := some 3, graph := some ⟨0, 0⟩, kind := .constant Scalar.two },
    { uid := ⟨4⟩, idx := some 4, graph := some ⟨0, 0⟩, kind := .operator .power [2, 3] },
    { uid := ⟨5⟩, idx := some 5, graph := some ⟨0, 0⟩, kind := .operator .division [4, 1] }]
  depths := #[0, 0, 1, 1, 2, 3]

/-- The example is built by insertions. -/
theorem built_squareRatio : squareRatio.Built := by
  let left : Node ℝ := { uid := ⟨0⟩, kind := .leaf 0 }
  let right : Node ℝ := { uid := ⟨1⟩, kind := .leaf 1 }
  let product : Node ℝ := { uid := ⟨2⟩, kind := .operator .product [0, 1] }
  let exponent : Node ℝ := { uid := ⟨3⟩, kind := .constant Scalar.two }
  let power : Node ℝ := { uid := ⟨4⟩, kind := .operator .power [2, 3] }
  let ratio : Node ℝ := { uid := ⟨5⟩, kind := .operator .division [4, 1] }
  have first : Built _ := (Built.empty ⟨0, 0⟩ none).insert (rfl : left.kind.checkArity = _) rfl
  have second : Built _ := first.insert (rfl : right.kind.checkArity = _) rfl
  have third : Built _ := second.insert (rfl : product.kind.checkArity = _) rfl
  have fourth : Built _ := third.insert (rfl : exponent.kind.checkArity = _) rfl
  have fifth : Built _ := fourth.insert (rfl : power.kind.checkArity = _) rfl
  exact fifth.insert (rfl : ratio.kind.checkArity = _) rfl

/-- Only the two variables of the point occur in the example. -/
theorem occurs_squareRatio {id : VariableId} (occurs : squareRatio.Occurs 5 id) :
    id < [(3 : ℝ), 5].length := by
  obtain ⟨idx, -, known⟩ := occurs
  rcases idx with _ | _ | _ | _ | _ | _ | idx <;> cases known <;> decide

/-- The exponents in the example are constants. -/
theorem constantExponents_squareRatio : squareRatio.ConstantExponents 5 := by
  intro idx base exponent _ known id ⟨leaf, reaches, isLeaf⟩
  have three : exponent = 3 := by
    rcases idx with _ | _ | _ | _ | _ | _ | idx <;> cases known
    rfl
  subst three
  rcases Relation.ReflTransGen.cases_head reaches with same | ⟨child, ⟨node, held, member⟩, -⟩
  · subst same
    cases isLeaf
  · cases held
    cases member

/-- The example has the value, the gradient and the curvature of its formula. -/
theorem eval_secondOrder_squareRatio :
    squareRatio.Built ∧ 5 < squareRatio.size ∧ squareRatio.ConstantExponents 5 ∧
      (∀ id, squareRatio.Occurs 5 id → id < [(3 : ℝ), 5].length) ∧
      ∃ result : SecondOrder ℝ,
        squareRatio.eval 5 (Assignment.seeded [3, 5]) { checkFinite := false } = .ok result ∧
        squareRatio.eval 5 (Assignment.seeded [3, 5]) { checkFinite := false } =
          .ok result.value ∧
        ∀ i j, result.secondDerivative i j =
          (((squareRatio.formula 5).derivative i).derivative j).eval ([3, 5].getD · 0) := by
  have inside : 5 < squareRatio.size := by decide
  obtain ⟨result, seeded, plain, -, -, second, -⟩ :=
    eval_secondOrder built_squareRatio inside constantExponents_squareRatio
      fun id => occurs_squareRatio
  exact ⟨built_squareRatio, inside, constantExponents_squareRatio, fun id => occurs_squareRatio,
    result, seeded, plain, second⟩

end Graph

end MixedInteger
