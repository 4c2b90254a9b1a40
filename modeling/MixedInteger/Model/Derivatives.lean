import MixedInteger.Model.Basic
import MixedInteger.Derivative.FirstOrder
import MixedInteger.Derivative.SecondOrder

/-! # Derivatives of a problem

Values, gradients and Hessians of the constraints and objectives of a problem at
a point. Derivatives are listed sparsely in ascending order without the entries
that are zero. Constraints are evaluated in the order they were added, and the
first that fails gives the error.
-/

namespace MixedInteger

/-- The nonzero partial derivatives of one function, by ascending variable. -/
abbrev SparseRow (K : Type) := List (VariableId × K)

/-- The nonzero lower-triangle entries of a symmetric matrix, by ascending row
and then column. -/
abbrev SparseMatrix (K : Type) := List (Cell × K)

variable {K : Type} [Scalar K]

/-- The stored entries that are not zero, in ascending order. -/
def Sparse.nonzeros {ι : Type} [Ord ι] [Std.TransOrd ι] (entries : Sparse ι K) : List (ι × K) :=
  entries.toList.filter fun stored => !(stored.2 == 0)

namespace Graph

/-- The gradient of a root at a point, its zeros left out. -/
def gradientRow (graph : Graph K) (root : NodeIdx) (point : Assignment (FirstOrder K))
    (options : EvalOptions) : Except (Fault (EvalError K)) (SparseRow K) := do
  let value ← graph.eval root point options
  return value.gradient.nonzeros

/-- The Hessian of a root at a point, its zeros left out. -/
def hessianMatrix (graph : Graph K) (root : NodeIdx) (point : Assignment (SecondOrder K))
    (options : EvalOptions) : Except (Fault (EvalError K)) (SparseMatrix K) := do
  let value ← graph.eval root point options
  return Sparse.nonzeros value.hessian

end Graph

/-- Add a weighted matrix to a total. -/
def Hessian.addWeighted (total : Hessian K) (weight : K) (matrix : SparseMatrix K) : Hessian K :=
  matrix.foldl (fun total term => Sparse.accumulate total term.1 (weight * term.2)) total

namespace Problem

/-- The graph has to be the problem's own. -/
def checkGraph (problem : Problem K) (graph : Graph K) : Except Violation Unit :=
  if graph.id = problem.graph then .ok () else .error (.foreignGraph graph.id problem.id)

/-- The objective at a position that the caller knows to be there. -/
def objective (problem : Problem K) (position : Nat) : Except Violation Objective :=
  entryAt problem.objectives position

/-- The value of every constraint at a point. -/
def constraintValues (problem : Problem K) (graph : Graph K) (point : List K)
    (options : EvalOptions) : Except (Fault (EvalError K)) (List K) := do
  Fault.contract (problem.checkGraph graph)
  problem.constraints.mapM fun constraint =>
    graph.eval constraint.root (Assignment.ofList point) options

/-- The gradients of the constraints, in their order. -/
def constraintJacobian (problem : Problem K) (graph : Graph K) (point : List K)
    (options : EvalOptions) : Except (Fault (EvalError K)) (List (SparseRow K)) := do
  Fault.contract (problem.checkGraph graph)
  problem.constraints.mapM fun constraint =>
    graph.gradientRow constraint.root (Assignment.seeded point) options

/-- The gradient of an objective. -/
def objectiveGradient (problem : Problem K) (graph : Graph K) (position : Nat) (point : List K)
    (options : EvalOptions) : Except (Fault (EvalError K)) (SparseRow K) := do
  Fault.contract (problem.checkGraph graph)
  let objective ← Fault.contract (problem.objective position)
  graph.gradientRow objective.root (Assignment.seeded point) options

/-- The Hessians of the constraints, in their order. -/
def constraintHessians (problem : Problem K) (graph : Graph K) (point : List K)
    (options : EvalOptions) : Except (Fault (EvalError K)) (List (SparseMatrix K)) := do
  Fault.contract (problem.checkGraph graph)
  problem.constraints.mapM fun constraint =>
    graph.hessianMatrix constraint.root (Assignment.seeded point) options

/-- The Hessian of an objective. -/
def objectiveHessian (problem : Problem K) (graph : Graph K) (position : Nat) (point : List K)
    (options : EvalOptions) : Except (Fault (EvalError K)) (SparseMatrix K) := do
  Fault.contract (problem.checkGraph graph)
  let objective ← Fault.contract (problem.objective position)
  graph.hessianMatrix objective.root (Assignment.seeded point) options

/-- The weighted Hessian of the first objective, or nothing when the weight is
zero or there is no objective. -/
def weightedObjective (problem : Problem K) (graph : Graph K) (weight : K) (point : List K)
    (options : EvalOptions) : Except (Fault (EvalError K)) (Hessian K) :=
  if weight == 0 || problem.objectives.isEmpty then return ∅
  else do
    let matrix ← problem.objectiveHessian graph 0 point options
    return Hessian.addWeighted ∅ weight matrix

/-- The Hessian of the Lagrangian: the first objective by its weight plus every
constraint by its multiplier. Terms with a zero factor are left out, and so are
entries that come out as zero. -/
def lagrangianHessian (problem : Problem K) (graph : Graph K) (weight : K)
    (multipliers : List K) (point : List K) (options : EvalOptions) :
    Except (Fault (EvalError K)) (SparseMatrix K) := do
  if multipliers.length ≠ problem.constraints.length then
    throw (.violation (.multiplierCount problem.id))
  let objective ← problem.weightedObjective graph weight point options
  let matrices ← problem.constraintHessians graph point options
  let total := (matrices.zip multipliers).foldl (fun total term =>
    if term.2 == 0 then total else Hessian.addWeighted total term.2 term.1) objective
  return Sparse.nonzeros total

end Problem

namespace Model

/-- Run an evaluation of a problem in its own graph. -/
def evaluate {α : Type} (model : Model K) (id : ProblemId)
    (run : Problem K → Graph K → Except (Fault (EvalError K)) α) :
    Except (Fault (ModelError K)) α := do
  let (problem, graph) ← Fault.report ((model.problemWithGraph id).mapError .reference)
  (run problem graph).mapError (Fault.map .eval)

/-- Run an evaluation of an objective in the problem's own graph. -/
def evaluateObjective {α : Type} (model : Model K) (id : ProblemId) (position : Nat)
    (run : Problem K → Graph K → Except (Fault (EvalError K)) α) :
    Except (Fault (ModelError K)) α := do
  let (problem, graph) ← Fault.report ((model.problemWithGraph id).mapError .reference)
  if problem.objectives.length ≤ position then
    throw (.error (.unknownObjective position))
  (run problem graph).mapError (Fault.map .eval)

/-- The values of the constraints of a problem, in its own graph. -/
def constraintValues (model : Model K) (id : ProblemId) (point : List K) (options : EvalOptions) :
    Except (Fault (ModelError K)) (List K) :=
  model.evaluate id fun problem graph => problem.constraintValues graph point options

/-- The gradients of the constraints of a problem, in its own graph. -/
def constraintJacobian (model : Model K) (id : ProblemId) (point : List K)
    (options : EvalOptions) : Except (Fault (ModelError K)) (List (SparseRow K)) :=
  model.evaluate id fun problem graph => problem.constraintJacobian graph point options

/-- The Hessians of the constraints of a problem, in its own graph. -/
def constraintHessians (model : Model K) (id : ProblemId) (point : List K)
    (options : EvalOptions) : Except (Fault (ModelError K)) (List (SparseMatrix K)) :=
  model.evaluate id fun problem graph => problem.constraintHessians graph point options

/-- The gradient of an objective of a problem, in its own graph. -/
def objectiveGradient (model : Model K) (id : ProblemId) (position : Nat) (point : List K)
    (options : EvalOptions) : Except (Fault (ModelError K)) (SparseRow K) :=
  model.evaluateObjective id position fun problem graph =>
    problem.objectiveGradient graph position point options

/-- The Hessian of an objective of a problem, in its own graph. -/
def objectiveHessian (model : Model K) (id : ProblemId) (position : Nat) (point : List K)
    (options : EvalOptions) : Except (Fault (ModelError K)) (SparseMatrix K) :=
  model.evaluateObjective id position fun problem graph =>
    problem.objectiveHessian graph position point options

/-- The Hessian of the Lagrangian of a problem, in its own graph. -/
def lagrangianHessian (model : Model K) (id : ProblemId) (weight : K) (multipliers : List K)
    (point : List K) (options : EvalOptions) : Except (Fault (ModelError K)) (SparseMatrix K) :=
  model.evaluate id fun problem graph =>
    problem.lagrangianHessian graph weight multipliers point options

end Model

end MixedInteger
