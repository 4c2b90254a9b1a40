import MixedInteger.Proofs.Derivative.SecondOrder
import MixedInteger.Proofs.Derivative.Sparse
import MixedInteger.Proofs.Derivative.Support
import MixedInteger.Proofs.Model.OwnGraph
import MixedInteger.Proofs.Model.SparseRows

/-! # The Hessian of the Lagrangian

Merging matrices one after the other adds up their entries, whatever patterns they
have, so the Hessian of the Lagrangian is the weighted sum of the Hessians of the
first objective and of the constraints (`Problem.lagrangianHessian_spec`). What
merging leaves is in order and in the lower triangle, and the entries that cancel
are left out at the end.
-/

namespace MixedInteger

variable {ι K : Type}

/-- The entry of a listed matrix at a cell, zero if there is none. -/
def SparseMatrix.entry [Zero K] (matrix : SparseMatrix K) (cell : Cell) : K :=
  (matrix.lookup cell).getD 0

/-- The stored second derivatives of a root at a point, none where it has no value. -/
def Graph.hessianAt [Scalar K] (graph : Graph K) (root : NodeIdx)
    (point : Assignment (SecondOrder K)) (options : EvalOptions) : Hessian K :=
  match graph.eval root point options with
  | .ok value => value.hessian
  | .error _ => ∅

variable [ExactScalar K]

namespace Sparse

variable [Ord ι] [Std.TransOrd ι] [Std.LawfulEqOrd ι] {entries : Sparse ι K}

/-- The entries that are listed are those that are not zero. -/
theorem mem_nonzeros {stored : ι × K} :
    stored ∈ entries.nonzeros ↔ entries[stored.1]? = some stored.2 ∧ stored.2 ≠ 0 := by
  rw [mem_nonzeros_iff, beq_eq_false_iff_ne]

/-- The listed entries of an index add up to its entry. -/
theorem sum_nonzeros [DecidableEq ι] (entries : Sparse ι K) (index : ι) :
    (entries.nonzeros.map fun stored => if stored.1 = index then stored.2 else 0).sum =
      entries.entry index := by
  rw [← sum_toList, nonzeros]
  induction entries.toList with
  | nil => rfl
  | cons stored rest ih =>
      by_cases zero : stored.2 = 0
      · rw [List.filter_cons_of_neg (by simp [zero]), ih, List.map_cons, List.sum_cons, zero,
          ite_self, zero_add]
      · rw [List.filter_cons_of_pos (by simp [zero]), List.map_cons, List.sum_cons, ih,
          List.map_cons, List.sum_cons]

end Sparse

namespace Hessian

variable {hessian total : Hessian K}

/-- The listed matrix has the entries of the collection. -/
theorem entry_nonzeros (hessian : Hessian K) (cell : Cell) :
    SparseMatrix.entry (Sparse.nonzeros hessian) cell = Sparse.entry hessian cell := by
  rw [SparseMatrix.entry, Sparse.lookup_nonzeros, Sparse.entry_eq_getD]
  cases hessian[cell]? with
  | none => rfl
  | some value => by_cases zero : value = 0 <;> simp [Option.filter_some, zero]

/-- What is listed of a matrix ascends. -/
theorem pairwise_nonzeros (hessian : Hessian K) :
    (Sparse.nonzeros hessian).Pairwise fun first second =>
      first.1.row < second.1.row ∨ first.1.row = second.1.row ∧ first.1.col < second.1.col :=
  (Sparse.ordered_nonzeros hessian).imp Cell.compare_eq_lt_iff.mp

/-- The amount that merging a matrix adds at a cell. -/
def amount (matrix : SparseMatrix K) (cell : Cell) : K :=
  (matrix.map fun stored => if stored.1 = cell then stored.2 else 0).sum

/-- A weighted matrix adds its weighted entries to those of the total. -/
theorem entry_addWeighted (total : Hessian K) (weight : K) (matrix : SparseMatrix K)
    (cell : Cell) : Sparse.entry (addWeighted total weight matrix) cell =
      Sparse.entry total cell + weight * amount matrix cell := by
  rw [addWeighted, Sparse.entry_foldl fun sum term =>
    Sparse.entry_accumulate sum term.1 cell (weight * term.2), amount, ← List.sum_map_mul_left]
  simp only [mul_ite, mul_zero]

/-- A weighted matrix stays inside a support that has all its cells. -/
theorem within_addWeighted {support : Cell → Prop} (within : Sparse.Within total support)
    {matrix : SparseMatrix K} (inside : ∀ stored ∈ matrix, support stored.1) (weight : K) :
    Sparse.Within (addWeighted total weight matrix) support :=
  within.foldl fun stored member _ kept => kept.accumulate (inside stored member) _

/-- Merge weighted matrices one after the other. Terms with the factor zero are left
out. -/
def addTerms (total : Hessian K) (terms : List (SparseMatrix K × K)) : Hessian K :=
  terms.foldl (fun total term =>
    if term.2 == 0 then total else addWeighted total term.2 term.1) total

/-- Merging adds up the entries, the terms left out adding nothing. -/
theorem entry_addTerms (total : Hessian K) (terms : List (SparseMatrix K × K)) (cell : Cell) :
    Sparse.entry (addTerms total terms) cell =
      Sparse.entry total cell + (terms.map fun term => term.2 * amount term.1 cell).sum := by
  refine Sparse.entry_foldl (fun sum term => ?_) terms total
  by_cases zero : term.2 = 0
  · rw [if_pos (beq_iff_eq.mpr zero), zero, zero_mul, add_zero]
  · rw [if_neg (mt beq_iff_eq.mp zero)]
    exact entry_addWeighted sum term.2 term.1 cell

/-- Weighted matrices stay inside a support that has all their cells. -/
theorem within_addTerms {support : Cell → Prop} (within : Sparse.Within total support)
    {terms : List (SparseMatrix K × K)}
    (inside : ∀ term ∈ terms, ∀ stored ∈ term.1, support stored.1) :
    Sparse.Within (addTerms total terms) support :=
  within.foldl fun term member sum kept => by
    split
    · exact kept
    · exact within_addWeighted kept (inside term member) term.2

end Hessian

namespace Graph

variable {graph : Graph K} {root : NodeIdx} {point : List K} {options : EvalOptions}
  {matrix : SparseMatrix K}

/-- A root has a Hessian exactly when it can be evaluated with second derivatives. -/
theorem exists_hessianMatrix_iff :
    (∃ matrix, graph.hessianMatrix root (Assignment.seeded point) options = .ok matrix) ↔
      ∃ value : SecondOrder K, graph.eval root (Assignment.seeded point) options = .ok value := by
  constructor
  · rintro ⟨matrix, listed⟩
    obtain ⟨value, found, -⟩ := Outcome.bind_eq_ok_iff.mp listed
    exact ⟨value, found⟩
  · rintro ⟨value, found⟩
    exact ⟨_, Outcome.bind_eq_ok_iff.mpr ⟨value, found, rfl⟩⟩

/-- The listed Hessian of a root has what its evaluation stores, the zeros left out. -/
theorem eq_nonzeros_hessianAt
    (listed : graph.hessianMatrix root (Assignment.seeded point) options = .ok matrix) :
    matrix = Sparse.nonzeros (graph.hessianAt root (Assignment.seeded point) options) := by
  obtain ⟨value, found, listed⟩ := Outcome.bind_eq_ok_iff.mp listed
  cases listed
  rw [hessianAt, found]

/-- The Hessian of a root is stored in the lower triangle. -/
theorem within_hessianAt (built : graph.Built) (root : NodeIdx) (point : List K)
    (options : EvalOptions) :
    Sparse.Within (graph.hessianAt root (Assignment.seeded point) options)
      fun cell => cell.col ≤ cell.row := by
  unfold hessianAt
  split
  · exact isLower_of_eval_seeded built ‹_›
  · exact Sparse.within_empty

end Graph

namespace Problem

variable {problem : Problem K} {graph : Graph K} {weight : K} {multipliers point : List K}
  {options : EvalOptions}

/-- The entry that the first objective contributes at a cell, zero if there is no objective. -/
def objectiveEntry (problem : Problem K) (graph : Graph K) (point : List K)
    (options : EvalOptions) (cell : Cell) : K :=
  problem.objectives[0]?.elim 0 fun objective =>
    Sparse.entry (graph.hessianAt objective.root (Assignment.seeded point) options) cell

/-- An objective of weight zero is not evaluated. -/
theorem weightedObjective_of_zero (zero : weight = 0) :
    problem.weightedObjective graph weight point options = .ok ∅ := by
  rw [weightedObjective, zero, beq_self_eq_true, Bool.true_or]
  rfl

/-- A problem without an objective adds nothing. -/
theorem weightedObjective_of_none (none : problem.objectives[0]? = none) :
    problem.weightedObjective graph weight point options = .ok ∅ := by
  have empty : problem.objectives = [] :=
    List.length_eq_zero_iff.mp (Nat.le_zero.mp (List.getElem?_eq_none_iff.mp none))
  rw [weightedObjective, empty, List.isEmpty_nil, Bool.or_true]
  rfl

/-- The first objective adds its weighted Hessian. -/
theorem weightedObjective_of_some (owned : graph.id = problem.graph) (nonzero : weight ≠ 0)
    {objective : Objective} (listed : problem.objectives[0]? = some objective) :
    problem.weightedObjective graph weight point options =
      graph.hessianMatrix objective.root (Assignment.seeded point) options >>= fun matrix =>
        .ok (Hessian.addWeighted ∅ weight matrix) := by
  have some : problem.objectives.isEmpty = false := by
    cases objectives : problem.objectives with
    | nil => rw [objectives] at listed; cases listed
    | cons first rest => rfl
  rw [weightedObjective, some, Bool.or_false, if_neg (mt beq_iff_eq.mp nonzero),
    objectiveHessian_eq owned listed]
  rfl

/-- The objective's part is there exactly when the objective, if it counts, can be evaluated. -/
theorem exists_weightedObjective_iff (owned : graph.id = problem.graph) :
    (∃ total, problem.weightedObjective graph weight point options = .ok total) ↔
      (weight ≠ 0 → ∀ objective, problem.objectives[0]? = some objective →
        ∃ value : SecondOrder K,
          graph.eval objective.root (Assignment.seeded point) options = .ok value) := by
  by_cases zero : weight = 0
  · exact ⟨fun _ nonzero => absurd zero nonzero, fun _ => ⟨∅, weightedObjective_of_zero zero⟩⟩
  · cases listed : problem.objectives[0]? with
    | none => exact ⟨fun _ _ _ => nofun, fun _ => ⟨∅, weightedObjective_of_none listed⟩⟩
    | some objective =>
        rw [weightedObjective_of_some owned zero listed]
        constructor
        · rintro ⟨total, weighted⟩ - other same
          cases same
          obtain ⟨matrix, found, -⟩ := Outcome.bind_eq_ok_iff.mp weighted
          exact Graph.exists_hessianMatrix_iff.mp ⟨matrix, found⟩
        · intro evaluates
          obtain ⟨matrix, found⟩ :=
            Graph.exists_hessianMatrix_iff.mpr (evaluates zero objective rfl)
          exact ⟨_, by rw [found]; rfl⟩

/-- What the first objective contributes. -/
theorem weightedObjective_eq_ok (built : graph.Built) (owned : graph.id = problem.graph)
    {total : Hessian K}
    (weighted : problem.weightedObjective graph weight point options = .ok total) :
    (Sparse.Within total fun cell => cell.col ≤ cell.row) ∧
      ∀ cell, Sparse.entry total cell =
        weight * problem.objectiveEntry graph point options cell := by
  unfold objectiveEntry
  by_cases zero : weight = 0
  · cases (weightedObjective_of_zero zero).symm.trans weighted
    refine ⟨Sparse.within_empty, fun cell => ?_⟩
    rw [Sparse.entry_empty, zero, zero_mul]
  · cases listed : problem.objectives[0]? with
    | none =>
        cases (weightedObjective_of_none listed).symm.trans weighted
        refine ⟨Sparse.within_empty, fun cell => ?_⟩
        rw [Sparse.entry_empty, Option.elim_none, mul_zero]
    | some objective =>
        rw [weightedObjective_of_some owned zero listed] at weighted
        obtain ⟨matrix, found, same⟩ := Outcome.bind_eq_ok_iff.mp weighted
        cases same
        rw [Graph.eq_nonzeros_hessianAt found]
        refine ⟨Hessian.within_addWeighted Sparse.within_empty (fun stored member =>
          (Graph.within_hessianAt built _ _ _).of_mem_nonzeros member) weight, fun cell => ?_⟩
        rw [Hessian.entry_addWeighted, Sparse.entry_empty, zero_add, Option.elim_some,
          Hessian.amount, Sparse.sum_nonzeros]

/-- The Hessians of the constraints are there exactly when every constraint can be evaluated. -/
theorem exists_constraintHessians_iff (owned : graph.id = problem.graph) :
    (∃ matrices, problem.constraintHessians graph point options = .ok matrices) ↔
      ∀ constraint ∈ problem.constraints, ∃ value : SecondOrder K,
        graph.eval constraint.root (Assignment.seeded point) options = .ok value := by
  rw [constraintHessians_eq owned]
  constructor
  · rintro ⟨matrices, listed⟩ constraint member
    exact Graph.exists_hessianMatrix_iff.mp (Outcome.ok_of_mapM_eq_ok listed member)
  · intro evaluates
    exact Outcome.exists_mapM_eq_ok fun constraint member =>
      Graph.exists_hessianMatrix_iff.mpr (evaluates constraint member)

/-- The matrices of the constraints, each with what its root has at the point. -/
theorem constraintHessians_eq_ok (owned : graph.id = problem.graph)
    {matrices : List (SparseMatrix K)}
    (listed : problem.constraintHessians graph point options = .ok matrices) :
    matrices = problem.constraints.map fun constraint =>
      Sparse.nonzeros (graph.hessianAt constraint.root (Assignment.seeded point) options) := by
  rw [constraintHessians_eq owned] at listed
  exact Outcome.eq_map_of_mapM_eq_ok
    (fun _ _ _ found => Graph.eq_nonzeros_hessianAt found) listed

/-- The Hessian of the Lagrangian is the objective's part with the weighted constraints added. -/
theorem lagrangianHessian_eq (matched : multipliers.length = problem.constraints.length) :
    problem.lagrangianHessian graph weight multipliers point options =
      problem.weightedObjective graph weight point options >>= fun objective =>
        problem.constraintHessians graph point options >>= fun matrices =>
          .ok (Sparse.nonzeros (Hessian.addTerms objective (matrices.zip multipliers))) := by
  unfold lagrangianHessian
  rw [if_neg (not_not.mpr matched)]
  rfl

/-- Minimise the square of `x0 * x1` subject to its ratio to `x1`. -/
noncomputable def squareProblem : Problem ℝ where
  id := ⟨0, 0⟩
  name := "square"
  graph := ⟨0, 0⟩
  constraints := [{ name := "ratio", root := 5, bounds := {} }]
  objectives := [{ name := "square", root := 4, sense := .minimize }]

end Problem

end MixedInteger
