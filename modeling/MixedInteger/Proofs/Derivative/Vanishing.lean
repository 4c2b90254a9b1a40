import MixedInteger.Proofs.Derivative.SecondOrder
import MixedInteger.Proofs.Expression.PolynomialDegree
import MixedInteger.Proofs.Model.OwnGraph

/-! # Derivatives that a degree rules out

An expression of degree zero has no gradient, and one of degree at most one has no
Hessian. What the degree analysis finds and what an evaluation with derivatives
stores agree in this, with exact scalars and arbitrary library functions
(`Problem.derivatives_of_degree`). Entries may be stored where the degree rules them
out, but they are zero, and a zero is left out of a row. Each rule of the analysis is
held against the rule for derivatives of the same operator (`Degree.Respected`).
-/

namespace MixedInteger

variable {K A : Type}

/-! ## Collections of zeros -/

namespace Sparse

variable {ι : Type} [Ord ι] [Std.TransOrd ι] [ExactScalar K]

/-- Whether every stored entry is zero. -/
def Vanishes (entries : Sparse ι K) : Prop := ∀ index, entries.entry index = 0

theorem vanishes_empty : Vanishes (∅ : Sparse ι K) := entry_empty

variable [Std.LawfulEqOrd ι] {entries left right : Sparse ι K}

/-- What is stored in a collection of zeros is zero. -/
theorem Vanishes.eq_zero_of_mem (vanishes : entries.Vanishes) {stored : ι × K}
    (member : stored ∈ entries.toList) : stored.2 = 0 := by
  have found := Std.ExtTreeMap.mem_toList_iff_getElem?_eq_some.mp member
  rw [← vanishes stored.1, entry_eq_getD, found]
  rfl

/-- Nothing of a collection of zeros is listed. -/
theorem Vanishes.nonzeros (vanishes : entries.Vanishes) : entries.nonzeros = [] := by
  refine List.filter_eq_nil_iff.mpr fun stored member => ?_
  simp [vanishes.eq_zero_of_mem member]

/-- A multiple of zeros has only zeros. -/
theorem Vanishes.scaled (vanishes : entries.Vanishes) (factor : K) :
    (entries.scaled factor).Vanishes := fun index => by
  rw [entry_scaled, vanishes, zero_mul]

/-- The zero multiple of anything has only zeros. -/
theorem vanishes_scaled_zero (entries : Sparse ι K) : (entries.scaled 0).Vanishes := fun index => by
  rw [entry_scaled, mul_zero]

variable [DecidableEq ι]

/-- A linear combination of zeros has only zeros. -/
theorem Vanishes.combine (first : left.Vanishes) (second : right.Vanishes) (a b : K) :
    (left.combine a right b).Vanishes := fun index => by
  rw [entry_combine, first, second, zero_mul, mul_zero, add_zero]

/-- A zero may be added to an entry. -/
theorem Vanishes.accumulate (vanishes : entries.Vanishes) (index : ι) {amount : K}
    (zero : amount = 0) : (entries.accumulate index amount).Vanishes := fun other => by
  rw [entry_accumulate, vanishes, zero, ite_self, add_zero]

end Sparse

/-- An outer product adds nothing if one of its factors vanishes. -/
theorem Hessian.vanishes_addOuter [ExactScalar K] {hessian : Hessian K} {u v : Gradient K}
    (vanishes : Sparse.Vanishes hessian) (factors : Sparse.Vanishes u ∨ Sparse.Vanishes v)
    (c : K) : Sparse.Vanishes (hessian.addOuter u v c) := by
  unfold addOuter
  split
  · exact vanishes
  · simp only [Std.ExtTreeMap.foldl_eq_foldl_toList]
    refine List.foldlRecOn _ _ vanishes fun outer outerVanishes first firstStored => ?_
    refine List.foldlRecOn _ _ outerVanishes fun inner innerVanishes second secondStored => ?_
    have product : c * first.2 * second.2 = 0 := by
      obtain zero | zero := factors
      · rw [zero.eq_zero_of_mem firstStored, mul_zero, zero_mul]
      · rw [zero.eq_zero_of_mem secondStored, mul_zero]
    refine innerVanishes.accumulate _ ?_
    rw [product, mul_zero, ite_self]

/-! ## Rules for degrees and for quantities -/

/-- A relation between degrees and quantities that the degree rule and the evaluation
rule of every operator respect. -/
structure Degree.Respected [Scalar K] [Numeric K A] (related : Degree → A → Prop) : Prop where
  unknown : ∀ x, related .unknown x
  zero : related (.known 0) 0
  constant : ∀ value, related (.known 0) (Numeric.constant value)
  neg : ∀ {d x}, related d x → related d (-x)
  add : ∀ {d e x y}, related d x → related e y → related (d.max e) (x + y)
  scale : ∀ {d x}, related d x → ∀ factor, related d (Numeric.scale x factor)
  /-- What is scaled by zero does not count. -/
  scale_zero : ∀ x, related (.known 0) (Numeric.scale x 0)
  mul : ∀ {d e x y}, related d x → related e y → related (d.product e) (x * y)
  div : ∀ {d x y}, related d x → related (.known 0) y → related d (x / y)
  apply : ∀ {x}, related (.known 0) x → ∀ function, related (.known 0) (Numeric.apply function x)
  power : ∀ {x y}, related (.known 0) x → related (.known 0) y →
    related (.known 0) (Numeric.power x y)
  power_whole : ∀ {d x}, related d x → ∀ {exponent k}, Scalar.wholeExponent? exponent = some k →
    related (d.power k) (Numeric.power x (Numeric.constant exponent))

/-- The degree zero changes no maximum. -/
theorem Degree.max_known_zero (degree : Degree) : degree.max (.known 0) = degree := by
  cases degree with
  | known bound => exact congrArg known (Nat.max_zero bound)
  | unknown => rfl

namespace Degree.Respected

variable [ExactScalar K] [Numeric K A] {related : Degree → A → Prop}

/-- A sum has the largest of the degrees. -/
theorem foldl_add (respected : Respected related) {children : List NodeIdx}
    {degrees : NodeIdx → Degree} {quantity : NodeIdx → A}
    (each : ∀ child ∈ children, related (degrees child) (quantity child)) {degree : Degree}
    {total : A} (start : related degree total) :
    related ((children.map degrees).foldl Degree.max degree)
      ((children.map quantity).foldl (· + ·) total) := by
  induction children generalizing degree total with
  | nil => exact start
  | cons child children ih =>
      exact ih (fun later member => each later (List.mem_cons_of_mem child member))
        (respected.add start (each child List.mem_cons_self))

/-- A child with a zero coefficient is left out on one side and scaled to zero on the
other. -/
theorem foldl_scale (respected : Respected related) {children : List NodeIdx}
    {degrees : NodeIdx → Degree} {quantity : NodeIdx → A}
    (each : ∀ child ∈ children, related (degrees child) (quantity child))
    (coefficients : List K) {degree : Degree} {total : A} (start : related degree total) :
    related ((((children.map degrees).zip coefficients).filter fun term => !(term.2 == 0)).foldl
        (fun degree term => degree.max term.1) degree)
      (((children.map quantity).zip coefficients).foldl
        (fun total term => total + Numeric.scale term.1 term.2) total) := by
  induction children generalizing degree total coefficients with
  | nil => exact start
  | cons child children ih =>
      cases coefficients with
      | nil => exact start
      | cons coefficient coefficients =>
          have later := fun next member => each next (List.mem_cons_of_mem child member)
          simp only [List.map_cons, List.zip_cons_cons, List.filter_cons, List.foldl_cons]
          by_cases zero : coefficient = 0
          · have dropped : (!(coefficient == 0)) = false := by simp [zero]
            simp only [dropped, Bool.false_eq_true, ↓reduceIte]
            refine ih later coefficients ?_
            have added := respected.add start (respected.scale_zero (quantity child))
            rwa [max_known_zero, ← zero] at added
          · have counted : (!(coefficient == 0)) = true := by simp [zero]
            simp only [counted, ↓reduceIte, List.foldl_cons]
            exact ih later coefficients
              (respected.add start (respected.scale (each child List.mem_cons_self) coefficient))

/-- The power rule of the analysis. An exponent that it reads off a constant is the
quantity of that constant. -/
theorem powerDegree (respected : Respected related) {base exponent : Degree} {x y : A}
    (first : related base x) (second : related exponent y) {constantExponent : Option K}
    (given : ∀ value, constantExponent = some value → y = Numeric.constant value) :
    related (Operator.powerDegree base exponent constantExponent) (Numeric.power x y) := by
  unfold Operator.powerDegree
  split
  · rename_i constants
    obtain ⟨rfl, rfl⟩ := constants
    exact respected.power first second
  · split
    · rename_i k whole
      obtain ⟨value, read, denoted⟩ := Option.bind_eq_some_iff.mp whole
      rw [given value read]
      exact respected.power_whole first denoted
    · exact respected.unknown _

/-- An operator takes quantities that are related to degrees to a quantity that is
related to the degree of the operator. -/
theorem operator (respected : Respected related) {op : Operator K} {children : List NodeIdx}
    {degrees : NodeIdx → Degree} {quantity : NodeIdx → A}
    (each : ∀ child ∈ children, related (degrees child) (quantity child))
    {constantExponent : Option K}
    (exponent : ∀ child value, children[1]? = some child → constantExponent = some value →
      quantity child = Numeric.constant value) {degree : Degree}
    (found : op.degree (children.map degrees) constantExponent = .ok degree) {result : A}
    (applied : op.apply (children.map quantity) = .ok result) : related degree result := by
  cases op with
  | sum =>
      cases children with
      | nil => cases applied
      | cons child children =>
          cases found
          cases applied
          exact respected.foldl_add each respected.zero
  | linear coefficients offset =>
      cases found
      simp only [Operator.apply] at applied
      split at applied
      · cases applied
        exact respected.foldl_scale each coefficients (respected.constant offset)
      · cases applied
  | negation =>
      rcases children with _ | ⟨x, _ | ⟨y, rest⟩⟩ <;> cases applied
      cases found
      exact respected.neg (each x List.mem_cons_self)
  | unary function =>
      rcases children with _ | ⟨x, _ | ⟨y, rest⟩⟩ <;> cases applied
      cases found
      split
      · rename_i constant
        exact respected.apply (constant ▸ each x List.mem_cons_self) function
      · exact respected.unknown _
  | product =>
      rcases children with _ | ⟨x, _ | ⟨y, _ | ⟨z, rest⟩⟩⟩ <;> cases applied
      cases found
      exact respected.mul (each x List.mem_cons_self)
        (each y (List.mem_cons_of_mem x List.mem_cons_self))
  | division =>
      rcases children with _ | ⟨x, _ | ⟨y, _ | ⟨z, rest⟩⟩⟩ <;> cases applied
      have second := each y (List.mem_cons_of_mem x List.mem_cons_self)
      change (if degrees y = .known 0 then Except.ok (degrees x) else .ok .unknown) = _ at found
      split at found
      · rename_i constant
        cases found
        exact respected.div (each x List.mem_cons_self) (constant ▸ second)
      · cases found
        exact respected.unknown _
  | power =>
      rcases children with _ | ⟨x, _ | ⟨y, _ | ⟨z, rest⟩⟩⟩ <;> cases applied
      cases found
      exact respected.powerDegree (each x List.mem_cons_self)
        (each y (List.mem_cons_of_mem x List.mem_cons_self)) (exponent y · rfl)

/-- Every node below a root is related to its degree if the variables are. -/
theorem interpret (respected : Respected related) {graph : Graph K}
    (wellFormed : graph.WellFormed) {root idx : NodeIdx} (inside : root < graph.size)
    {point : VariableId → A} (leaf : ∀ id, related (.known 1) (point id))
    (reaches : graph.Reaches root idx) :
    related (graph.unfoldedDegree idx) (graph.interpret (.values point) idx) := by
  refine wellFormed.induction inside
    (motive := fun idx =>
      related (graph.unfoldedDegree idx) (graph.interpret (.values point) idx))
    ?_ ?_ ?_ reaches
  · intro idx id below known
    obtain ⟨node, held, kind⟩ := Graph.exists_node_of_kind? known
    rw [Graph.unfoldedDegree_eq wellFormed held (by rw [kind]; rfl), Graph.interpret_leaf known]
    exact leaf id
  · intro idx value below known
    obtain ⟨node, held, kind⟩ := Graph.exists_node_of_kind? known
    rw [Graph.unfoldedDegree_eq wellFormed held (by rw [kind]; rfl),
      Graph.interpret_constant known]
    exact respected.constant value
  · intro idx op children below known each
    obtain ⟨node, held, kind⟩ := Graph.exists_node_of_kind? known
    have found := Graph.nodeDegree_unfoldedDegree wellFormed held
    rw [Node.children, kind] at found
    exact respected.operator each
      (fun child value second given =>
        Graph.interpret_constant (Graph.kind?_of_constantExponent second given))
      found (Graph.apply_eq_ok_interpret wellFormed known)

end Degree.Respected

/-! ## First derivatives -/

namespace FirstOrder

variable [ExactScalar K] {quantity left right : FirstOrder K}

/-- Whether a quantity has no gradient if its degree is zero. -/
def HasDegree (quantity : FirstOrder K) (degree : Degree) : Prop :=
  degree = .known 0 → quantity.gradient.Vanishes

/-- A power of quantities without gradients has none. -/
theorem vanishes_power (first : left.gradient.Vanishes)
    (second : right.gradient.Vanishes) : (left.power right).gradient.Vanishes := by
  unfold power
  dsimp only
  split
  · split
    · exact Sparse.vanishes_empty
    · exact first.scaled _
  · exact first.combine second _ _

/-- A power with the exponent zero is a constant. -/
theorem power_constant_zero (base : FirstOrder K) :
    base.power (constant 0) = constant (Scalar.power base.value 0) := by
  unfold power
  simp [constant]

/-- The rules for degrees say truly when a first derivative vanishes. -/
theorem respected_hasDegree [WholeExponent K] :
    Degree.Respected (K := K) fun degree (quantity : FirstOrder K) =>
      quantity.HasDegree degree where
  unknown _ := nofun
  zero _ := Sparse.vanishes_empty
  constant _ _ := Sparse.vanishes_empty
  neg has zero := (has zero).scaled _
  add first second zero := by
    obtain ⟨a, b, rfl, rfl, same⟩ := Degree.max_eq_known zero
    obtain ⟨rfl, rfl⟩ : a = 0 ∧ b = 0 := by simpa using same.symm
    exact (first rfl).combine (second rfl) _ _
  scale has factor zero := (has zero).scaled factor
  scale_zero quantity _ := Sparse.vanishes_scaled_zero quantity.gradient
  mul first second zero := by
    obtain ⟨a, b, rfl, rfl, same, -⟩ := Degree.product_eq_known zero
    obtain ⟨rfl, rfl⟩ : a = 0 ∧ b = 0 := by omega
    exact (first rfl).combine (second rfl) _ _
  div first second zero := (first zero).combine (second rfl) _ _
  apply has _ _ := (has rfl).scaled _
  power first second _ := vanishes_power (first rfl) (second rfl)
  power_whole {d x} has {exponent k} whole zero := by
    obtain ⟨a, rfl, same, -⟩ := Degree.power_eq_known zero
    obtain rfl | rfl := Nat.mul_eq_zero.mp same.symm
    · exact vanishes_power (has rfl) Sparse.vanishes_empty
    · rw [WholeExponent.eq_natCast whole, Nat.cast_zero]
      change (x.power (FirstOrder.constant 0)).gradient.Vanishes
      rw [power_constant_zero]
      exact Sparse.vanishes_empty

end FirstOrder

/-! ## Second derivatives -/

namespace SecondOrder

variable [ExactScalar K] {quantity left right : SecondOrder K}

/-- Whether all derivatives of a quantity are zero. -/
structure IsFlat (quantity : SecondOrder K) : Prop where
  gradient : quantity.gradient.Vanishes
  hessian : Sparse.Vanishes quantity.hessian

theorem isFlat_constant (value : K) : (constant value).IsFlat :=
  ⟨Sparse.vanishes_empty, Sparse.vanishes_empty⟩

/-- A function of a flat quantity is flat. -/
theorem IsFlat.chain (flat : quantity.IsFlat) (value slope curvature : K) :
    (quantity.chain value slope curvature).IsFlat := by
  unfold SecondOrder.chain
  split
  · exact isFlat_constant value
  · exact ⟨flat.gradient.scaled _,
      Hessian.vanishes_addOuter (flat.hessian.scaled _) (.inl flat.gradient) _⟩

/-- A product has no Hessian if its factors have none and one of them is flat. -/
theorem vanishes_hessian_mul (first : Sparse.Vanishes left.hessian)
    (second : Sparse.Vanishes right.hessian)
    (gradients : left.gradient.Vanishes ∨ right.gradient.Vanishes) :
    Sparse.Vanishes (left.mul right).hessian :=
  Hessian.vanishes_addOuter (first.combine second _ _) gradients 1

/-- A product of flat quantities is flat. -/
theorem IsFlat.mul (first : left.IsFlat) (second : right.IsFlat) : (left.mul right).IsFlat where
  gradient := first.gradient.combine second.gradient _ _
  hessian := vanishes_hessian_mul first.hessian second.hessian (.inl first.gradient)

/-- The branch for a constant exponent is not taken where zeros are stored, but the
exponential of a logarithm is flat as well. -/
theorem IsFlat.power (first : left.IsFlat) (second : right.IsFlat) :
    (left.power right).IsFlat := by
  unfold SecondOrder.power
  dsimp only
  split
  · split
    · exact isFlat_constant _
    · split
      · exact first
      · exact first.chain _ _ _
  · exact (second.mul (first.chain _ _ _)).chain _ _ _

/-- A quotient by a flat divisor has the derivatives of its dividend, scaled. -/
theorem vanishes_gradient_div (first : left.gradient.Vanishes) (second : right.IsFlat) :
    (left.div right).gradient.Vanishes := by
  unfold div
  split
  · exact first.scaled _
  · exact first.combine (second.chain _ _ _).gradient _ _

/-- A quotient of a quantity without a Hessian by a flat one has no Hessian. -/
theorem vanishes_hessian_div (first : Sparse.Vanishes left.hessian) (second : right.IsFlat) :
    Sparse.Vanishes (left.div right).hessian := by
  unfold div
  split
  · exact first.scaled _
  · have flat : right.recip.IsFlat := second.chain _ _ _
    exact vanishes_hessian_mul first flat.hessian (.inr flat.gradient)

/-- A power with the exponent zero is a constant, and one with the exponent one is its
base. -/
theorem power_constant_zero (base : SecondOrder K) :
    base.power (constant 0) = constant (Scalar.power base.value 0) := by
  unfold power
  rw [if_pos (isConstant_constant 0)]
  simp [constant]

/-- A power with the exponent one is its base. -/
theorem power_constant_one (base : SecondOrder K) : base.power (constant 1) = base := by
  unfold power
  rw [if_pos (isConstant_constant 1)]
  simp [constant]

/-- Whether a quantity has no gradient if its degree is zero and no Hessian if its
degree is at most one. -/
structure HasDegree (quantity : SecondOrder K) (degree : Degree) : Prop where
  gradient : degree = .known 0 → quantity.gradient.Vanishes
  hessian : ∀ bound, degree = .known bound → bound ≤ 1 → Sparse.Vanishes quantity.hessian

/-- A quantity of degree zero is flat. -/
theorem HasDegree.isFlat (has : quantity.HasDegree (.known 0)) : quantity.IsFlat :=
  ⟨has.gradient rfl, has.hessian 0 rfl (Nat.zero_le 1)⟩

/-- A flat quantity passes for any degree. -/
theorem IsFlat.hasDegree (flat : quantity.IsFlat) (degree : Degree) : quantity.HasDegree degree :=
  ⟨fun _ => flat.gradient, fun _ _ _ => flat.hessian⟩

/-- The rules for degrees say truly when first and second derivatives vanish. -/
theorem respected_hasDegree [WholeExponent K] :
    Degree.Respected (K := K) fun degree (quantity : SecondOrder K) =>
      quantity.HasDegree degree where
  unknown _ := ⟨nofun, nofun⟩
  zero := (isFlat_constant 0).hasDegree _
  constant value := (isFlat_constant value).hasDegree _
  neg has := ⟨fun zero => (has.gradient zero).scaled _,
    fun bound known small => (has.hessian bound known small).scaled _⟩
  add {d e x y} first second := by
    refine ⟨fun zero => ?_, fun bound known small => ?_⟩
    · obtain ⟨a, b, rfl, rfl, same⟩ := Degree.max_eq_known zero
      obtain ⟨rfl, rfl⟩ : a = 0 ∧ b = 0 := by simpa using same.symm
      exact (first.gradient rfl).combine (second.gradient rfl) _ _
    · obtain ⟨a, b, rfl, rfl, rfl⟩ := Degree.max_eq_known known
      obtain ⟨leftSmall, rightSmall⟩ := Nat.max_le.mp small
      exact (first.hessian a rfl leftSmall).combine (second.hessian b rfl rightSmall) _ _
  scale has factor := ⟨fun zero => (has.gradient zero).scaled _,
    fun bound known small => (has.hessian bound known small).scaled _⟩
  scale_zero quantity := ⟨fun _ => Sparse.vanishes_scaled_zero _,
    fun _ _ _ => Sparse.vanishes_scaled_zero _⟩
  mul {d e x y} first second := by
    refine ⟨fun zero => ?_, fun bound known small => ?_⟩
    · obtain ⟨a, b, rfl, rfl, same, -⟩ := Degree.product_eq_known zero
      obtain ⟨rfl, rfl⟩ : a = 0 ∧ b = 0 := by omega
      exact (first.isFlat.mul second.isFlat).gradient
    · obtain ⟨a, b, rfl, rfl, rfl, -⟩ := Degree.product_eq_known known
      refine vanishes_hessian_mul (first.hessian a rfl (by omega)) (second.hessian b rfl (by omega))
        ?_
      obtain rfl | rfl : a = 0 ∨ b = 0 := by omega
      · exact .inl (first.gradient rfl)
      · exact .inr (second.gradient rfl)
  div first second := ⟨fun zero => vanishes_gradient_div (first.gradient zero) second.isFlat,
    fun bound known small => vanishes_hessian_div (first.hessian bound known small) second.isFlat⟩
  apply has _ := (has.isFlat.chain _ _ _).hasDegree _
  power first second := (first.isFlat.power second.isFlat).hasDegree _
  power_whole {d x} has {exponent k} whole := by
    rw [WholeExponent.eq_natCast whole]
    change (x.power (SecondOrder.constant (k : K))).HasDegree (d.power k)
    have flat (a : Nat) (known : d = .known a) (zero : a * k = 0) :
        (x.power (SecondOrder.constant (k : K))).IsFlat := by
      subst known
      obtain rfl | rfl := Nat.mul_eq_zero.mp zero
      · exact has.isFlat.power (isFlat_constant _)
      · rw [Nat.cast_zero, power_constant_zero]
        exact isFlat_constant _
    refine ⟨fun zero => ?_, fun bound known small => ?_⟩
    · obtain ⟨a, same, product, -⟩ := Degree.power_eq_known zero
      exact (flat a same product.symm).gradient
    · obtain ⟨a, same, rfl, -⟩ := Degree.power_eq_known known
      obtain zero | one := Nat.le_one_iff_eq_zero_or_eq_one.mp small
      · exact (flat a same zero).hessian
      · obtain ⟨rfl, rfl⟩ : a = 1 ∧ k = 1 := by simpa using one
        rw [Nat.cast_one, power_constant_one]
        exact has.hessian 1 same (Nat.le_refl 1)

end SecondOrder

/-! ## Derivatives of expressions and of problems -/

namespace Graph

variable [ExactScalar K] [WholeExponent K] {graph : Graph K} {root : NodeIdx} {bound : Nat}

section Seeded

variable (wellFormed : graph.WellFormed) (found : graph.degree root = .ok (.known bound))
  {point : List K} (bound_lt : ∀ id, graph.Occurs root id → id < point.length)
include wellFormed found bound_lt

/-- What evaluation with first derivatives finds has the degree of the root. -/
theorem exists_firstOrder_hasDegree : ∃ result : FirstOrder K,
    graph.eval root (Assignment.seeded point) { checkFinite := false } = .ok result ∧
      result.HasDegree (.known bound) := by
  have inside := lt_size_of_degree_eq_ok found
  refine ⟨_, eval_seeded wellFormed inside bound_lt, ?_⟩
  rw [← unfoldedDegree_of_degree_eq_ok wellFormed found]
  exact FirstOrder.respected_hasDegree.interpret wellFormed inside (fun id => nofun)
    Relation.ReflTransGen.refl

/-- What evaluation with second derivatives finds has the degree of the root. -/
theorem exists_secondOrder_hasDegree : ∃ result : SecondOrder K,
    graph.eval root (Assignment.seeded point) { checkFinite := false } = .ok result ∧
      result.HasDegree (.known bound) := by
  have inside := lt_size_of_degree_eq_ok found
  refine ⟨_, eval_seeded wellFormed inside bound_lt, ?_⟩
  rw [← unfoldedDegree_of_degree_eq_ok wellFormed found]
  exact SecondOrder.respected_hasDegree.interpret wellFormed inside
    (fun id => ⟨nofun, fun _ _ _ => Sparse.vanishes_empty⟩) Relation.ReflTransGen.refl

/-- The row of a root of degree zero is empty. -/
theorem gradientRow_eq_nil (zero : bound = 0) :
    graph.gradientRow root (Assignment.seeded point) { checkFinite := false } = .ok [] := by
  obtain ⟨result, evaluated, has⟩ := exists_firstOrder_hasDegree wellFormed found bound_lt
  rw [gradientRow, evaluated, Outcome.ok_bind, (has (congrArg _ zero)).nonzeros]
  rfl

/-- The matrix of a root of degree at most one is empty. -/
theorem hessianMatrix_eq_nil (small : bound ≤ 1) :
    graph.hessianMatrix root (Assignment.seeded point) { checkFinite := false } = .ok [] := by
  obtain ⟨result, evaluated, has⟩ := exists_secondOrder_hasDegree wellFormed found bound_lt
  rw [hessianMatrix, evaluated, Outcome.ok_bind, (has.hessian bound rfl small).nonzeros]
  rfl

end Seeded

end Graph

namespace Problem

variable [ExactScalar K] {graph : Graph K} {problem : Problem K} {point : List K}

/-- At a point that binds the variables of all constraints there is a matrix for every
constraint. -/
theorem exists_constraintHessians (wellFormed : graph.WellFormed)
    (owned : graph.id = problem.graph)
    (bodies : ∀ constraint ∈ problem.constraints, constraint.root < graph.size ∧
      ∀ id, graph.Occurs constraint.root id → id < point.length) :
    ∃ matrix : Constraint K → SparseMatrix K,
      problem.constraintHessians graph point { checkFinite := false } =
        .ok (problem.constraints.map matrix) ∧
      ∀ constraint ∈ problem.constraints,
        graph.hessianMatrix constraint.root (Assignment.seeded point) { checkFinite := false } =
          .ok (matrix constraint) := by
  let matrix (constraint : Constraint K) : SparseMatrix K := Sparse.nonzeros
    (graph.interpret (.values fun id => SecondOrder.seed id (point.getD id 0))
      constraint.root).hessian
  have each : ∀ constraint ∈ problem.constraints,
      graph.hessianMatrix constraint.root (Assignment.seeded point) { checkFinite := false } =
        .ok (matrix constraint) := by
    intro constraint member
    obtain ⟨inside, bound⟩ := bodies constraint member
    rw [Graph.hessianMatrix, Graph.eval_seeded wellFormed inside bound]
    rfl
  refine ⟨matrix, ?_, each⟩
  rw [constraintHessians_eq owned]
  exact Outcome.mapM_eq_ok_map each

/-- The graph of `x0 / (0 * x0 + 1) ^ (0 * x0 + 1)`. The divisor is constant by its degree
alone: it stores a zero for `x0`, and its exponent is no constant node. -/
noncomputable def flatDivisor : Graph ℝ where
  id := ⟨0, 0⟩
  nodes := #[
    { uid := ⟨0⟩, idx := some 0, graph := some ⟨0, 0⟩, kind := .leaf 0 },
    { uid := ⟨1⟩, idx := some 1, graph := some ⟨0, 0⟩, kind := .operator (.linear [0] 1) [0] },
    { uid := ⟨2⟩, idx := some 2, graph := some ⟨0, 0⟩, kind := .operator .power [1, 1] },
    { uid := ⟨3⟩, idx := some 3, graph := some ⟨0, 0⟩, kind := .operator .division [0, 2] }]
  depths := #[0, 1, 2, 3]

/-- The example is built by insertions. -/
theorem built_flatDivisor : flatDivisor.Built := by
  let argument : Node ℝ := { uid := ⟨0⟩, kind := .leaf 0 }
  let form : Node ℝ := { uid := ⟨1⟩, kind := .operator (.linear [0] 1) [0] }
  let power : Node ℝ := { uid := ⟨2⟩, kind := .operator .power [1, 1] }
  let ratio : Node ℝ := { uid := ⟨3⟩, kind := .operator .division [0, 2] }
  have first : Graph.Built _ :=
    (Graph.Built.empty ⟨0, 0⟩ none).insert (rfl : argument.kind.checkArity = _) rfl
  have second : Graph.Built _ := first.insert (rfl : form.kind.checkArity = _) rfl
  have third : Graph.Built _ := second.insert (rfl : power.kind.checkArity = _) rfl
  exact third.insert (rfl : ratio.kind.checkArity = _) rfl

/-- By its degree the divisor is constant and the quotient linear. -/
theorem unfoldedDegree_flatDivisor :
    flatDivisor.unfoldedDegree 2 = .known 0 ∧ flatDivisor.unfoldedDegree 3 = .known 1 := by
  have wellFormed := built_flatDivisor.wellFormed
  have leaf : flatDivisor.unfoldedDegree 0 = .known 1 :=
    Graph.unfoldedDegree_eq wellFormed rfl rfl
  have form : flatDivisor.unfoldedDegree 1 = .known 0 := by
    refine Graph.unfoldedDegree_eq wellFormed rfl ?_
    change (Operator.linear [(0 : ℝ)] 1).degree [flatDivisor.unfoldedDegree 0] none = _
    rw [leaf]
    simp [Operator.degree, pure, Except.pure]
  have power : flatDivisor.unfoldedDegree 2 = .known 0 := by
    refine Graph.unfoldedDegree_eq wellFormed rfl ?_
    change Except.ok (Operator.powerDegree (flatDivisor.unfoldedDegree 1)
      (flatDivisor.unfoldedDegree 1) (none : Option ℝ)) = _
    rw [form]
    rfl
  refine ⟨power, Graph.unfoldedDegree_eq wellFormed rfl ?_⟩
  change (if flatDivisor.unfoldedDegree 2 = .known 0 then
    Except.ok (flatDivisor.unfoldedDegree 0) else _) = _
  rw [power, leaf]
  rfl

/-- Minimise the divisor subject to the quotient. -/
def flatProblem : Problem ℝ where
  id := ⟨0, 0⟩
  name := "flat"
  graph := ⟨0, 0⟩
  constraints := [{ name := "quotient", root := 3, bounds := {} }]
  objectives := [{ name := "divisor", root := 2, sense := .minimize }]

end Problem

end MixedInteger
