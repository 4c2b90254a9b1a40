import MixedInteger.Model.Derivatives

/-! # Evaluation in the own graph

In the graph of a problem, what the problem evaluates are its bodies: those of all
constraints in turn, or that of one objective.
-/

namespace MixedInteger.Problem

variable {K : Type} [Scalar K] {problem : Problem K} {graph : Graph K} {point : List K}

section Listed

variable (owned : graph.id = problem.graph)

include owned

/-- On the problem's own graph the constraint values are the evaluations of the constraint roots, in
order. -/
theorem constraintValues_eq (options : EvalOptions) : problem.constraintValues graph point options =
    problem.constraints.mapM fun constraint =>
      graph.eval constraint.root (Assignment.ofList point) options := by
  rw [constraintValues, checkGraph, if_pos owned]
  rfl

/-- On the problem's own graph the constraint Jacobian is the gradient rows of the constraint roots,
in order. -/
theorem constraintJacobian_eq (options : EvalOptions) : problem.constraintJacobian graph point options =
    problem.constraints.mapM fun constraint =>
      graph.gradientRow constraint.root (Assignment.seeded point) options := by
  rw [constraintJacobian, checkGraph, if_pos owned]
  rfl

/-- On the problem's own graph the constraint Hessians are the Hessian matrices of the constraint
roots, in order. -/
theorem constraintHessians_eq (options : EvalOptions) : problem.constraintHessians graph point options =
    problem.constraints.mapM fun constraint =>
      graph.hessianMatrix constraint.root (Assignment.seeded point) options := by
  rw [constraintHessians, checkGraph, if_pos owned]
  rfl

variable {position : Nat} {objective : Objective}
  (listed : problem.objectives[position]? = some objective)

include listed

/-- On the problem's own graph the gradient of an objective is the gradient row of its root. -/
theorem objectiveGradient_eq (options : EvalOptions) :
    problem.objectiveGradient graph position point options =
      graph.gradientRow objective.root (Assignment.seeded point) options := by
  rw [objectiveGradient, checkGraph, if_pos owned, Problem.objective, entryAt, listed]
  rfl

/-- On the problem's own graph the Hessian of an objective is the Hessian matrix of its root. -/
theorem objectiveHessian_eq (options : EvalOptions) :
    problem.objectiveHessian graph position point options =
      graph.hessianMatrix objective.root (Assignment.seeded point) options := by
  rw [objectiveHessian, checkGraph, if_pos owned, Problem.objective, entryAt, listed]
  rfl

end Listed

end MixedInteger.Problem
