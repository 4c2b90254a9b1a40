import MixedInteger.Derivative.FirstOrder
import MixedInteger.Derivative.SecondOrder
import MixedInteger.Proofs.Derivative.Formula
import MixedInteger.Proofs.Expression.Valuation

/-! # Where derivatives are stored

What an operation on sparse collections stores depends on what its operands store, and never
on the numbers, but that a factor of zero leaves an outer product out (`Hessian.mem_addOuter`).
A property of quantities that every operation keeps holds of whatever an
evaluation finds, if it holds of the values of the variables
(`Graph.closed_eval`). So an evaluation at a point stores derivatives for the variables that
occur in it only, and of second derivatives only the lower triangle.
-/

namespace MixedInteger

variable {ι K A : Type}

namespace Sparse

variable [Ord ι] [Std.TransOrd ι]

/-- Whether all stored indices satisfy a condition. -/
def Within (entries : Sparse ι K) (support : ι → Prop) : Prop :=
  ∀ index, index ∈ entries → support index

variable {entries left right : Sparse ι K} {support : ι → Prop}

theorem within_empty : Within (∅ : Sparse ι K) support := fun _ member =>
  absurd member Std.ExtTreeMap.not_mem_empty

/-- A fold whose steps keep the condition keeps it. -/
theorem Within.foldl {α : Type} {items : List α} {step : Sparse ι K → α → Sparse ι K}
    (within : entries.Within support) (kept : ∀ item ∈ items, ∀ sum : Sparse ι K,
      sum.Within support → (step sum item).Within support) :
    (items.foldl step entries).Within support := by
  induction items generalizing entries with
  | nil => exact within
  | cons item items ih =>
      exact ih (kept item List.mem_cons_self entries within)
        fun later member => kept later (List.mem_cons_of_mem _ member)

theorem mem_of_mem_toList [Std.LawfulEqOrd ι] {stored : ι × K}
    (member : stored ∈ entries.toList) : stored.1 ∈ entries :=
  Std.ExtTreeMap.mem_iff_isSome_getElem?.mpr
    (by rw [Std.ExtTreeMap.mem_toList_iff_getElem?_eq_some.mp member]; rfl)

theorem mem_toList_of_mem [Std.LawfulEqOrd ι] {index : ι} (member : index ∈ entries) :
    ∃ stored ∈ entries.toList, stored.1 = index :=
  ⟨(index, entries[index]),
    Std.ExtTreeMap.mem_toList_iff_getElem?_eq_some.mpr
      (Std.ExtTreeMap.getElem?_eq_some_getElem member), rfl⟩

/-- A fold over stored entries that stores certain indices for each of them stores all of these
beside what was there. -/
theorem mem_foldl {κ : Type} [Ord κ] [Std.TransOrd κ] [Std.LawfulEqOrd κ] {others : Sparse κ K}
    {step : Sparse ι K → κ → K → Sparse ι K} {index : ι} {adds : κ → Prop}
    (each : ∀ sum key stored, index ∈ step sum key stored ↔ index ∈ sum ∨ adds key)
    (start : Sparse ι K) :
    index ∈ others.foldl step start ↔ index ∈ start ∨ ∃ key ∈ others, adds key := by
  have listed (items : List (κ × K)) (start : Sparse ι K) :
      index ∈ items.foldl (fun sum item => step sum item.1 item.2) start ↔
        index ∈ start ∨ ∃ item ∈ items, adds item.1 := by
    induction items generalizing start with
    | nil => simp
    | cons item items ih =>
        rw [List.foldl_cons, ih, each, List.exists_mem_cons_iff, or_assoc]
  rw [Std.ExtTreeMap.foldl_eq_foldl_toList, listed]
  refine or_congr_right ⟨?_, ?_⟩
  · rintro ⟨item, member, added⟩
    exact ⟨item.1, mem_of_mem_toList member, added⟩
  · rintro ⟨key, member, added⟩
    obtain ⟨item, held, rfl⟩ := mem_toList_of_mem member
    exact ⟨item, held, added⟩

/-- A single entry is stored where it was put. -/
theorem within_insert_empty [Std.LawfulEqOrd ι] {index : ι} (inside : support index) (value : K) :
    Sparse.Within ((∅ : Sparse ι K).insert index value) support := by
  intro query member
  rcases Std.ExtTreeMap.mem_insert.mp member with same | absent
  · rwa [← Std.LawfulEqOrd.eq_of_compare same]
  · exact absurd absent Std.ExtTreeMap.not_mem_empty

variable [Scalar K]

/-- A factor changes no index. -/
theorem mem_scaled {index : ι} {factor : K} : index ∈ entries.scaled factor ↔ index ∈ entries :=
  Std.ExtTreeMap.mem_map

/-- A multiple stores entries where the collection does. -/
theorem Within.scaled (within : entries.Within support) (factor : K) :
    (entries.scaled factor).Within support := fun index member =>
  within index (mem_scaled.mp member)

variable [Std.LawfulEqOrd ι]

/-- An amount that is added to an entry makes sure that it is stored. -/
theorem mem_accumulate {index query : ι} {amount : K} :
    query ∈ entries.accumulate index amount ↔ query = index ∨ query ∈ entries := by
  unfold accumulate
  rw [Std.ExtTreeMap.mem_alter]
  by_cases same : index = query
  · subst same
    simp
  · simp [same, Ne.symm same]

/-- An amount may be added inside the support. -/
theorem Within.accumulate (within : entries.Within support) {index : ι} (inside : support index)
    (amount : K) : (entries.accumulate index amount).Within support := by
  intro query member
  rcases mem_accumulate.mp member with rfl | old
  · exact inside
  · exact within query old

/-- A linear combination stores the entries of both sides. -/
theorem mem_combine {index : ι} {a b : K} :
    index ∈ left.combine a right b ↔ index ∈ left ∨ index ∈ right := by
  have step (sum : Sparse ι K) (key : ι) (stored : K) :
      index ∈ sum.accumulate key (b * stored) ↔ index ∈ sum ∨ index = key :=
    mem_accumulate.trans or_comm
  rw [combine, mem_foldl step, mem_scaled, exists_eq_right']

/-- A linear combination stays inside a support of both sides. -/
theorem Within.combine (first : left.Within support) (second : right.Within support) (a b : K) :
    (left.combine a right b).Within support := fun index member =>
  (mem_combine.mp member).elim (first index) (second index)

end Sparse

/-- Cells ascend by row and then by column. -/
theorem Cell.compare_eq_lt_iff {left right : Cell} : compare left right = .lt ↔
    left.row < right.row ∨ left.row = right.row ∧ left.col < right.col := by
  change (compare left.row right.row).then (compare left.col right.col) = .lt ↔ _
  rw [Ordering.then_eq_lt, Std.compare_eq_lt, Std.compare_eq_lt, Std.compare_eq_iff_eq]

/-- The cell of two variables lies in the lower triangle. -/
theorem Cell.col_lower_le (i j : VariableId) : (lower i j).col ≤ (lower i j).row := by
  unfold lower
  split
  · assumption
  · exact Nat.le_of_not_le ‹_›

/-- Whether a cell of certain variables is not above the diagonal. -/
def Cell.Below (support : VariableId → Prop) (cell : Cell) : Prop :=
  cell.col ≤ cell.row ∧ support cell.row ∧ support cell.col

/-- The cell of two variables of a support has both its row and its column there. -/
theorem Cell.below_lower {support : VariableId → Prop} {i j : VariableId} (first : support i)
    (second : support j) : (lower i j).Below support := by
  refine ⟨col_lower_le i j, ?_⟩
  unfold lower
  split
  · exact ⟨first, second⟩
  · exact ⟨second, first⟩

/-- An outer product stores the cells of all pairs of variables of its two rows, and none if its
factor is zero. -/
theorem Hessian.mem_addOuter [Scalar K] {hessian : Hessian K} {u v : Gradient K} {factor : K}
    {cell : Cell} : cell ∈ addOuter hessian u v factor ↔
      cell ∈ hessian ∨ (factor == 0) = false ∧ ∃ i ∈ u, ∃ j ∈ v, cell = Cell.lower i j := by
  unfold addOuter
  split
  · rename_i zero
    simp [zero]
  · rename_i nonzero
    -- one variable of `u` stores its cells with all variables of `v`
    have row (outer : Hessian K) (i : VariableId) (a : K) :
        cell ∈ v.foldl (fun inner j b => Sparse.accumulate inner (Cell.lower i j)
            (if i = j then Scalar.two * (factor * a * b) else factor * a * b)) outer ↔
          cell ∈ outer ∨ ∃ j ∈ v, cell = Cell.lower i j := by
      refine Sparse.mem_foldl (fun inner j b => ?_) outer
      rw [Sparse.mem_accumulate, or_comm]
    rw [Sparse.mem_foldl row, eq_false_of_ne_true nonzero, eq_self, true_and]

/-- An outer product stays inside a support that has all its cells. -/
theorem Hessian.within_addOuter [Scalar K] {hessian : Hessian K} {u v : Gradient K}
    {support : Cell → Prop} (within : Sparse.Within hessian support)
    (inside : ∀ i ∈ u, ∀ j ∈ v, support (Cell.lower i j)) (factor : K) :
    Sparse.Within (addOuter hessian u v factor) support := by
  intro cell stored
  rcases mem_addOuter.mp stored with old | ⟨-, i, first, j, second, rfl⟩
  · exact within cell old
  · exact inside i first j second

/-- A property of quantities that every operation keeps. -/
structure Numeric.Closed [Numeric K A] (kept : A → Prop) : Prop where
  zero : kept 0
  constant : ∀ value : K, kept (Numeric.constant value)
  neg : ∀ {x}, kept x → kept (-x)
  add : ∀ {x y}, kept x → kept y → kept (x + y)
  mul : ∀ {x y}, kept x → kept y → kept (x * y)
  div : ∀ {x y}, kept x → kept y → kept (x / y)
  scale : ∀ {x}, kept x → ∀ factor : K, kept (Numeric.scale x factor)
  apply : ∀ {x}, kept x → ∀ function, kept (Numeric.apply function x)
  power : ∀ {x y}, kept x → kept y → kept (Numeric.power x y)

/-- A property that every operation keeps is respected, whatever the formulas. -/
theorem Numeric.Closed.respected [Scalar K] [Numeric K A] {kept : A → Prop} (closed : Closed kept) :
    Formula.Respected (fun _ : A => True) fun quantity _ => kept quantity where
  zero := closed.zero
  constant := closed.constant
  neg := closed.neg
  add := closed.add
  mul := closed.mul
  div := closed.div
  scale := closed.scale
  apply := closed.apply
  power first second _ := closed.power first second

namespace Graph

variable [Scalar K] [Numeric K A] {graph : Graph K} {root : NodeIdx} {assignment : Assignment A}
  {options : EvalOptions} {kept : A → Prop}

/-- The rule of a node keeps a property. -/
theorem closed_evalNode (closed : Numeric.Closed kept) {kind : NodeKind K} {idx : NodeIdx}
    {values : NodeIdx → A} (children : ∀ child ∈ kind.children, kept (values child))
    (leaf : ∀ id value, kind = .leaf id → assignment.get? id = some value → kept value) {value : A}
    (meets : evalNode kind idx (kind.children.map values) assignment options = .ok value) :
    kept value := by
  cases kind with
  | leaf id =>
      simp only [evalNode] at meets
      cases found : assignment.get? id with
      | none =>
          rw [found] at meets
          cases meets
      | some bound =>
          rw [found] at meets
          rw [EvalOptions.eq_of_check_eq_ok (Fault.report_eq_ok_iff.mp meets)]
          exact leaf id bound rfl found
  | constant stored =>
      rw [EvalOptions.eq_of_check_eq_ok (Fault.report_eq_ok_iff.mp meets)]
      exact closed.constant stored
  | operator op operands =>
      obtain ⟨result, applied, checked⟩ := Outcome.bind_eq_ok_iff.mp meets
      rw [EvalOptions.eq_of_check_eq_ok (Fault.report_eq_ok_iff.mp checked)]
      -- the formulas that the property is related to play no part
      exact @Formula.Respected.operator K A _ _ _ _ closed.respected op operands values
        (fun _ => 0) children (fun _ _ _ _ => trivial) result (Fault.contract_eq_ok_iff.mp applied)

/-- Whatever an evaluation finds has a property that every operation keeps, if the
values of the variables have it. -/
theorem closed_eval (closed : Numeric.Closed kept) (built : graph.Built)
    (leaf : ∀ id value, graph.Occurs root id → assignment.get? id = some value → kept value)
    {value : A} (evaluated : graph.eval root assignment options = .ok value) : kept value := by
  have wellFormed := built.wellFormed
  obtain ⟨values, valuation, rfl⟩ :=
    (eval_eq_ok_iff wellFormed (lt_size_of_eval_eq_ok evaluated)).mp evaluated
  suffices below : ∀ idx, graph.Reaches root idx → kept (values idx) from
    below root Relation.ReflTransGen.refl
  intro idx
  induction idx using Nat.strongRecOn with
  | ind idx ih =>
      intro reaches
      obtain ⟨node, held, meets⟩ := valuation idx reaches
      refine closed_evalNode closed (fun child member => ?_) (fun id value kind found => ?_) meets
      · exact ih child (wellFormed.child_lt held member) (reaches.tail ⟨node, held, member⟩)
      · exact leaf id value ⟨idx, reaches, (kind?_eq held).trans (congrArg some kind)⟩ found

end Graph

namespace FirstOrder

variable {left right quantity : FirstOrder K}

/-- Whether derivatives are stored for certain variables only. -/
def StoredWithin (quantity : FirstOrder K) (support : VariableId → Prop) : Prop :=
  quantity.gradient.Within support

variable {support : VariableId → Prop}

/-- A constant stores no derivatives, and so none outside a support. -/
theorem storedWithin_constant (value : K) : (constant value).StoredWithin support :=
  Sparse.within_empty

variable [Scalar K]

/-- A variable of the support stores a derivative for itself only. -/
theorem storedWithin_seed {id : VariableId} (inside : support id) (value : K) :
    (seed id value).StoredWithin support :=
  Sparse.within_insert_empty inside 1

/-- A power stores derivatives where its base or its exponent does. -/
theorem storedWithin_power (first : left.StoredWithin support)
    (second : right.StoredWithin support) : (left.power right).StoredWithin support := by
  unfold power
  dsimp only
  split
  · split
    · exact storedWithin_constant _
    · exact first.scaled _
  · exact first.combine second _ _

/-- No operation stores a first derivative outside the support of its arguments. -/
theorem closed_storedWithin (support : VariableId → Prop) :
    Numeric.Closed (K := K) fun quantity : FirstOrder K => quantity.StoredWithin support where
  zero := storedWithin_constant 0
  constant := storedWithin_constant
  neg within := within.scaled _
  add first second := first.combine second _ _
  mul first second := first.combine second _ _
  div first second := first.combine second _ _
  scale within factor := within.scaled factor
  apply within _ := within.scaled _
  power := storedWithin_power

end FirstOrder

namespace SecondOrder

variable {left right quantity : SecondOrder K}

/-- Whether no second derivative is stored above the diagonal. -/
def IsLower (quantity : SecondOrder K) : Prop :=
  Sparse.Within quantity.hessian fun cell => cell.col ≤ cell.row

/-- Whether first and second derivatives are stored for certain variables only, and no
second derivative above the diagonal. -/
structure StoredWithin (quantity : SecondOrder K) (support : VariableId → Prop) : Prop where
  gradient : quantity.gradient.Within support
  hessian : Sparse.Within quantity.hessian (Cell.Below support)

variable {support : VariableId → Prop}

/-- What is stored within a support of variables is stored in the lower triangle. -/
theorem StoredWithin.isLower (within : quantity.StoredWithin support) : quantity.IsLower :=
  fun cell stored => (within.hessian cell stored).1

/-- A constant stores no derivatives, and so none outside a support. -/
theorem storedWithin_constant (value : K) : (constant value).StoredWithin support :=
  ⟨Sparse.within_empty, Sparse.within_empty⟩

variable [Scalar K]

/-- A variable of the support stores a derivative for itself only. -/
theorem storedWithin_seed {id : VariableId} (inside : support id) (value : K) :
    (seed id value).StoredWithin support :=
  ⟨Sparse.within_insert_empty inside 1, Sparse.within_empty⟩

/-- A function of a quantity stores derivatives where the quantity does. -/
theorem storedWithin_chain (within : quantity.StoredWithin support) (value slope curvature : K) :
    (quantity.chain value slope curvature).StoredWithin support := by
  unfold chain
  split
  · exact storedWithin_constant value
  · exact ⟨within.gradient.scaled slope, Hessian.within_addOuter (within.hessian.scaled slope)
      (fun i first j second => Cell.below_lower (within.gradient i first)
        (within.gradient j second)) _⟩

/-- A product stores derivatives where one of its factors does. -/
theorem storedWithin_mul (first : left.StoredWithin support)
    (second : right.StoredWithin support) : (left.mul right).StoredWithin support where
  gradient := first.gradient.combine second.gradient _ _
  hessian := Hessian.within_addOuter (first.hessian.combine second.hessian _ _)
    (fun i one j other => Cell.below_lower (first.gradient i one) (second.gradient j other)) _

/-- A multiple stores derivatives where the quantity does. -/
theorem storedWithin_scale (within : quantity.StoredWithin support) (factor : K) :
    (quantity.scale factor).StoredWithin support :=
  ⟨within.gradient.scaled factor, within.hessian.scaled factor⟩

/-- A power stores derivatives where its base or its exponent does. -/
theorem storedWithin_power (first : left.StoredWithin support)
    (second : right.StoredWithin support) : (left.power right).StoredWithin support := by
  unfold power
  dsimp only
  split
  · split
    · exact storedWithin_constant _
    · split
      · exact first
      · exact storedWithin_chain first _ _ _
  · exact storedWithin_chain (storedWithin_mul second (storedWithin_chain first _ _ _)) _ _ _

/-- No operation stores a derivative of either order outside the support of its arguments. -/
theorem closed_storedWithin (support : VariableId → Prop) :
    Numeric.Closed (K := K) fun quantity : SecondOrder K => quantity.StoredWithin support where
  zero := storedWithin_constant 0
  constant := storedWithin_constant
  neg within := storedWithin_scale within _
  add first second :=
    ⟨first.gradient.combine second.gradient _ _, first.hessian.combine second.hessian _ _⟩
  mul := storedWithin_mul
  div first second := by
    change (SecondOrder.div _ _).StoredWithin support
    unfold SecondOrder.div
    split
    · exact storedWithin_scale first _
    · exact storedWithin_mul first (storedWithin_chain second _ _ _)
  scale := storedWithin_scale
  apply within _ := storedWithin_chain within _ _ _
  power := storedWithin_power

end SecondOrder

/-- A seeded point binds variables to themselves. -/
theorem Assignment.eq_seed_of_get?_seeded [Numeric K A] {point : List K} {id : VariableId}
    {quantity : A} (found : (seeded point : Assignment A).get? id = some quantity) :
    ∃ value, quantity = Numeric.seed id value := by
  by_cases inside : id < point.length
  · rw [get?_seeded inside] at found
    exact ⟨point[id], (Option.some.inj found).symm⟩
  · simp [get?, seeded, ofList, inside] at found

/-- An evaluation at a seeded point stores first derivatives for variables that occur
below the root only. -/
theorem Graph.storedWithin_firstOrder_of_eval_seeded [Scalar K] {graph : Graph K}
    (built : graph.Built) {root : NodeIdx} {point : List K} {options : EvalOptions}
    {value : FirstOrder K}
    (evaluated : graph.eval root (Assignment.seeded point) options = .ok value) :
    value.StoredWithin (graph.Occurs root) :=
  closed_eval (FirstOrder.closed_storedWithin _) built (fun id _ occurs bound => by
    obtain ⟨value, rfl⟩ := Assignment.eq_seed_of_get?_seeded bound
    exact FirstOrder.storedWithin_seed occurs value) evaluated

/-- An evaluation at a seeded point stores first and second derivatives for variables
that occur below the root only, and no second derivative above the diagonal. -/
theorem Graph.storedWithin_secondOrder_of_eval_seeded [Scalar K] {graph : Graph K}
    (built : graph.Built) {root : NodeIdx} {point : List K} {options : EvalOptions}
    {value : SecondOrder K}
    (evaluated : graph.eval root (Assignment.seeded point) options = .ok value) :
    value.StoredWithin (graph.Occurs root) :=
  closed_eval (SecondOrder.closed_storedWithin _) built (fun id _ occurs bound => by
    obtain ⟨value, rfl⟩ := Assignment.eq_seed_of_get?_seeded bound
    exact SecondOrder.storedWithin_seed occurs value) evaluated

/-- No evaluation at a seeded point stores a second derivative above the diagonal. -/
theorem Graph.isLower_of_eval_seeded [Scalar K] {graph : Graph K} (built : graph.Built)
    {root : NodeIdx} {point : List K} {options : EvalOptions} {value : SecondOrder K}
    (evaluated : graph.eval root (Assignment.seeded point) options = .ok value) : value.IsLower :=
  (storedWithin_secondOrder_of_eval_seeded built evaluated).isLower

end MixedInteger
