import MixedInteger.Proofs.Derivative.PlainValue
import MixedInteger.Proofs.Derivative.Support

/-! # Sparsity of derivatives

Second derivatives are stored for pairs of variables whose first derivatives are stored as
well, and below the diagonal only (`SecondOrder.Tied`). Every operation keeps this, also those
that drop what they store, because it looks at which entries there are and never at their
numbers. So it holds of whatever an evaluation finds, under any arithmetic: a quantity without
first derivatives has no second ones, and no second derivative is stored in two halves
(`Graph.eval_sparsity`).
-/

namespace MixedInteger

variable {K A : Type}

/-- The cell of two variables does not depend on their order. -/
theorem Cell.lower_comm (i j : VariableId) : lower i j = lower j i := by
  unfold lower
  by_cases same : i = j
  · rw [same]
  · by_cases ordered : j ≤ i
    · rw [if_pos ordered, if_neg fun other => same (Nat.le_antisymm other ordered)]
    · rw [if_neg ordered, if_pos (Nat.le_of_not_le ordered)]

/-! ## Properties that all operations keep -/

/-- A property that holds of the two neutral quantities and that every operation keeps, the
difference included, which no operator of a graph uses. -/
structure Numeric.Kept [Numeric K A] (kept : A → Prop) : Prop extends Numeric.Closed kept where
  one : kept 1
  sub : ∀ {x y}, kept x → kept y → kept (x - y)

/-- Two properties that every operation keeps are kept together. -/
theorem Numeric.Kept.and [Numeric K A] {first second : A → Prop} (one : Kept first)
    (other : Kept second) : Kept fun quantity => first quantity ∧ second quantity where
  zero := ⟨one.zero, other.zero⟩
  constant value := ⟨one.constant value, other.constant value⟩
  neg both := ⟨one.neg both.1, other.neg both.2⟩
  add left right := ⟨one.add left.1 right.1, other.add left.2 right.2⟩
  mul left right := ⟨one.mul left.1 right.1, other.mul left.2 right.2⟩
  div left right := ⟨one.div left.1 right.1, other.div left.2 right.2⟩
  scale both factor := ⟨one.scale both.1 factor, other.scale both.2 factor⟩
  apply both function := ⟨one.apply both.1 function, other.apply both.2 function⟩
  power left right := ⟨one.power left.1 right.1, other.power left.2 right.2⟩
  one := ⟨one.one, other.one⟩
  sub left right := ⟨one.sub left.1 right.1, other.sub left.2 right.2⟩

/-- Every operation keeps first derivatives inside a support. -/
theorem FirstOrder.kept_storedWithin [Scalar K] (support : VariableId → Prop) :
    Numeric.Kept (K := K) fun quantity : FirstOrder K => quantity.StoredWithin support where
  toClosed := closed_storedWithin support
  one := storedWithin_constant 1
  sub first second := first.combine second _ _

namespace SecondOrder

variable {left right quantity : SecondOrder K} {support : VariableId → Prop}

/-- Whether every second derivative is stored below the diagonal or on it, for two variables
whose first derivatives are stored. -/
def Tied (quantity : SecondOrder K) : Prop :=
  Sparse.Within quantity.hessian (Cell.Below (· ∈ quantity.gradient))

/-- Second derivatives of a tied quantity are stored where the first ones are. -/
theorem Tied.storedWithin (tied : quantity.Tied) (inside : quantity.gradient.Within support) :
    quantity.StoredWithin support where
  gradient := inside
  hessian cell stored :=
    have ⟨lower, row, col⟩ := tied cell stored
    ⟨lower, inside cell.row row, inside cell.col col⟩

/-- A quantity is tied if it stores the first derivatives by all variables of its second
ones. -/
theorem StoredWithin.tied (within : quantity.StoredWithin support)
    (stored : ∀ id, support id → id ∈ quantity.gradient) : quantity.Tied := fun cell member =>
  have ⟨lower, row, col⟩ := within.hessian cell member
  ⟨lower, stored cell.row row, stored cell.col col⟩

/-- A tied quantity stores derivatives by the variables of its gradient only. -/
theorem Tied.storedWithin_gradient (tied : quantity.Tied) :
    quantity.StoredWithin (· ∈ quantity.gradient) := tied.storedWithin fun _ stored => stored

variable (right) in
/-- A tied quantity stays within the gradients of two of them if it is the first. -/
theorem Tied.storedWithin_left (tied : left.Tied) :
    left.StoredWithin fun id => id ∈ left.gradient ∨ id ∈ right.gradient :=
  tied.storedWithin fun _ => .inl

/-- A tied quantity stays within the gradients of two of them if it is the second. -/
theorem Tied.storedWithin_right (tied : right.Tied) :
    right.StoredWithin fun id => id ∈ left.gradient ∨ id ∈ right.gradient :=
  tied.storedWithin fun _ => .inr

/-- A constant stores no second derivative. -/
theorem tied_constant (value : K) : (constant value).Tied := Sparse.within_empty

/-- A tied quantity without first derivatives has no second ones. -/
theorem Tied.hessian_eq_empty (tied : quantity.Tied) (empty : quantity.gradient = ∅) :
    quantity.hessian = ∅ := by
  refine Std.ExtTreeMap.eq_empty_iff_forall_not_mem.mpr fun cell stored => ?_
  have row := (tied cell stored).2.1
  rw [empty] at row
  exact Std.ExtTreeMap.not_mem_empty row

/-- No second derivative is stored on both sides of the diagonal. -/
theorem Tied.not_mem_transposed (tied : quantity.Tied) {i j : VariableId} (different : i ≠ j)
    (stored : Cell.mk i j ∈ quantity.hessian) : Cell.mk j i ∉ quantity.hessian := fun transposed =>
  different (Nat.le_antisymm (tied _ transposed).1 (tied _ stored).1)

variable [Scalar K]

/-- Every operation keeps derivatives of both orders inside a support. -/
theorem kept_storedWithin (support : VariableId → Prop) :
    Numeric.Kept (K := K) fun quantity : SecondOrder K => quantity.StoredWithin support where
  toClosed := closed_storedWithin support
  one := storedWithin_constant 1
  sub first second :=
    ⟨first.gradient.combine second.gradient _ _, first.hessian.combine second.hessian _ _⟩

/-- A variable stores no second derivative. -/
theorem tied_seed (id : VariableId) (value : K) : (seed id value).Tied := Sparse.within_empty

/-- A multiple of a tied quantity is tied. -/
theorem Tied.scale (tied : quantity.Tied) (factor : K) : (quantity.scale factor).Tied :=
  (storedWithin_scale tied.storedWithin_gradient factor).tied fun _ => Sparse.mem_scaled.mpr

/-- A function of a tied quantity is tied. -/
theorem Tied.chain (tied : quantity.Tied) (value slope curvature : K) :
    (quantity.chain value slope curvature).Tied := by
  have within := storedWithin_chain tied.storedWithin_gradient value slope curvature
  unfold SecondOrder.chain at within ⊢
  split
  · exact tied_constant value
  · rename_i varies
    rw [if_neg varies] at within
    exact within.tied fun _ => Sparse.mem_scaled.mpr

/-- A sum of tied quantities is tied. -/
theorem Tied.add (first : left.Tied) (second : right.Tied) : (left + right).Tied :=
  ((kept_storedWithin _).add (first.storedWithin_left right) second.storedWithin_right).tied
    fun _ => Sparse.mem_combine.mpr

/-- A difference of tied quantities is tied. -/
theorem Tied.sub (first : left.Tied) (second : right.Tied) : (left - right).Tied :=
  ((kept_storedWithin _).sub (first.storedWithin_left right) second.storedWithin_right).tied
    fun _ => Sparse.mem_combine.mpr

/-- A product of tied quantities is tied: its mixed terms lie where both gradients are stored. -/
theorem Tied.mul (first : left.Tied) (second : right.Tied) : (left.mul right).Tied :=
  (storedWithin_mul (first.storedWithin_left right) second.storedWithin_right).tied
    fun _ => Sparse.mem_combine.mpr

/-- A quotient of tied quantities is tied. -/
theorem Tied.div (first : left.Tied) (second : right.Tied) : (left.div right).Tied := by
  unfold SecondOrder.div
  split
  · exact first.scale _
  · exact first.mul (second.chain _ _ _)

/-- A power of tied quantities is tied, whichever of its cases applies. -/
theorem Tied.power (first : left.Tied) (second : right.Tied) : (left.power right).Tied := by
  unfold SecondOrder.power
  dsimp only
  split
  · split
    · exact tied_constant _
    · split
      · exact first
      · exact first.chain _ _ _
  · exact (second.mul (first.chain _ _ _)).chain _ _ _

/-- Every operation keeps quantities tied. -/
theorem kept_tied : Numeric.Kept (K := K) fun quantity : SecondOrder K => quantity.Tied where
  zero := tied_constant 0
  one := tied_constant 1
  constant := tied_constant
  neg tied := tied.scale _
  add := Tied.add
  sub := Tied.sub
  mul := Tied.mul
  div := Tied.div
  scale := Tied.scale
  apply tied _ := tied.chain _ _ _
  power := Tied.power

/-- Tied quantities whose first derivatives are stored for certain variables only. -/
theorem kept_tied_within (support : VariableId → Prop) :
    Numeric.Kept (K := K) fun quantity : SecondOrder K =>
      quantity.gradient.Within support ∧ quantity.Tied := by
  have same (quantity : SecondOrder K) : (quantity.gradient.Within support ∧ quantity.Tied) =
      (quantity.StoredWithin support ∧ quantity.Tied) :=
    propext ⟨fun ⟨inside, tied⟩ => ⟨tied.storedWithin inside, tied⟩,
      fun ⟨within, tied⟩ => ⟨within.gradient, tied⟩⟩
  simp only [same]
  exact (kept_storedWithin support).and kept_tied

/-- Second derivatives do not depend on the order of the variables. -/
theorem secondDerivative_comm (quantity : SecondOrder K) (i j : VariableId) :
    quantity.secondDerivative i j = quantity.secondDerivative j i := by
  unfold secondDerivative Hessian.symmetricEntry
  rw [Cell.lower_comm]

end SecondOrder

/-! ## Evaluations at partial points -/

namespace Graph

variable [Scalar K] {graph : Graph K} {root : NodeIdx} {plain : Assignment K}
  {options : EvalOptions}

/-- With its variables seeded, an evaluation finds what operations keep of seeds. -/
theorem kept_eval_withSeeds [Numeric K A] {kept : A → Prop} (closed : Numeric.Kept kept)
    (built : graph.Built) (seed : ∀ id value, graph.Occurs root id → kept (Numeric.seed id value))
    {quantity : A} (evaluated : graph.eval root plain.withSeeds options = .ok quantity) :
    kept quantity := by
  refine closed_eval closed.toClosed built (fun id quantity occurs bound => ?_) evaluated
  rw [Assignment.get?_withSeeds] at bound
  obtain ⟨value, -, rfl⟩ := Option.map_eq_some_iff.mp bound
  exact seed id value occurs

/-- **Sparsity is sound.** Under any arithmetic of the scalars, at a point that may leave
variables unbound, with or without checks: an evaluation stores first derivatives by variables
that occur below its root only. Second derivatives are stored below the diagonal or on it, by
two variables whose first derivatives are stored, so that there are none without first
derivatives, they are symmetric, and none is split between a cell and its transposed one.
Every operation on quantities keeps all of this. -/
theorem eval_sparsity (built : graph.Built) (root : NodeIdx) (plain : Assignment K)
    (options : EvalOptions) :
    (∀ quantity : FirstOrder K, graph.eval root plain.withSeeds options = .ok quantity →
      ∀ id ∈ quantity.gradient, graph.Occurs root id) ∧
    (∀ quantity : SecondOrder K, graph.eval root plain.withSeeds options = .ok quantity →
      (∀ id ∈ quantity.gradient, graph.Occurs root id) ∧
      (∀ cell ∈ quantity.hessian, cell.col ≤ cell.row ∧
        cell.row ∈ quantity.gradient ∧ cell.col ∈ quantity.gradient) ∧
      (quantity.gradient = ∅ → quantity.hessian = ∅) ∧
      (∀ i j, quantity.secondDerivative i j = quantity.secondDerivative j i) ∧
      ∀ i j, i ≠ j → Cell.mk i j ∈ quantity.hessian → Cell.mk j i ∉ quantity.hessian) ∧
    (∀ support : VariableId → Prop, Numeric.Kept (K := K) fun quantity : FirstOrder K =>
      ∀ id ∈ quantity.gradient, support id) ∧
    ∀ support : VariableId → Prop, Numeric.Kept (K := K) fun quantity : SecondOrder K =>
      (∀ id ∈ quantity.gradient, support id) ∧
        ∀ cell ∈ quantity.hessian, cell.col ≤ cell.row ∧
          cell.row ∈ quantity.gradient ∧ cell.col ∈ quantity.gradient := by
  refine ⟨fun quantity evaluated => ?_, fun quantity evaluated => ?_,
    FirstOrder.kept_storedWithin, SecondOrder.kept_tied_within⟩
  · exact kept_eval_withSeeds (FirstOrder.kept_storedWithin (graph.Occurs root)) built
      (fun id value occurs => FirstOrder.storedWithin_seed occurs value) evaluated
  · obtain ⟨inside, tied⟩ := kept_eval_withSeeds
      (SecondOrder.kept_tied_within (graph.Occurs root)) built
      (fun id value occurs => ⟨(SecondOrder.storedWithin_seed occurs value).gradient,
        SecondOrder.tied_seed id value⟩) evaluated
    exact ⟨inside, tied, tied.hessian_eq_empty, quantity.secondDerivative_comm,
      fun i j => tied.not_mem_transposed⟩

/-- The exponential by a variable with a number, beside a hole and a variable that does not
occur. -/
def partialPoint : Assignment Float := ⟨#[some 1.0, none, some 2.0]⟩

/-- Derivatives are stored for the variable that occurs, and for no other one. -/
theorem eval_sparsity_sharedExponential :
    sharedExponential.Built ∧
      ∃ quantity : SecondOrder Float,
        sharedExponential.eval 3 partialPoint.withSeeds { checkFinite := false } = .ok quantity ∧
        2 ∉ quantity.gradient ∧ Cell.mk 0 2 ∉ quantity.hessian := by
  have bound : ∀ id, sharedExponential.Occurs 3 id →
      partialPoint.withSeeds.get? id = some (SecondOrder.seed 0 (1.0 : Float)) := by
    intro id occurs
    cases occurs_sharedExponential occurs
    rfl
  obtain ⟨quantity, evaluated⟩ : ∃ quantity : SecondOrder Float,
      sharedExponential.eval 3 partialPoint.withSeeds { checkFinite := false } = .ok quantity :=
    ⟨_, eval_eq_interpret built_sharedExponential.wellFormed (by decide) bound⟩
  obtain ⟨-, second, -, -⟩ :=
    eval_sparsity built_sharedExponential 3 partialPoint { checkFinite := false }
  obtain ⟨inside, tied, -⟩ := second quantity evaluated
  have absent : 2 ∉ quantity.gradient := fun stored =>
    absurd (occurs_sharedExponential (inside 2 stored)) (by decide)
  exact ⟨built_sharedExponential, quantity, evaluated, absent,
    fun stored => absent (tied _ stored).2.2⟩

end Graph

end MixedInteger
