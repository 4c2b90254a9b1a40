import MixedInteger.Expression.Subtree
import MixedInteger.Expression.Assignment

/-! # Evaluation

A root is evaluated by visiting its subtree in ascending order and keeping each
node's value, so shared subexpressions are computed once. On request every value
is checked as it is produced, and the first one that is not finite ends the
evaluation.
-/

namespace MixedInteger

/-- The errors of an evaluation. -/
inductive EvalError (K : Type) where
  /-- A variable below the root has no value. -/
  | unboundVariable (id : VariableId) (node : NodeIdx)
  /-- A node's value has a component that is not finite. -/
  | nonFinite (node : NodeIdx) (operator : String) (value : K)
  deriving DecidableEq, Repr

/-- What a caller chooses about evaluation. -/
structure EvalOptions where
  /-- Whether a value that is not finite ends the evaluation. -/
  checkFinite : Bool := true
  deriving DecidableEq, Repr

namespace EvalOptions

variable {K A : Type} [Numeric K A]

/-- Let a node's value pass, unless it has to be finite and is not. -/
def check (options : EvalOptions) (node : NodeIdx) (operator : String) (value : A) :
    Except (EvalError K) A :=
  if options.checkFinite && !Numeric.isFinite value then
    .error (.nonFinite node operator (Numeric.value value))
  else .ok value

end EvalOptions

/-- The value of an earlier visit. -/
def visited {A : Type} (memo : Array (Option A)) (idx : NodeIdx) : Except Violation A :=
  match memo[idx]?.join with
  | some value => .ok value
  | none => .error .childNotVisited

namespace Graph

variable {K A : Type} [Numeric K A]

/-- The value of one node, given the values of its children in order. -/
def evalNode (kind : NodeKind K) (idx : NodeIdx) (args : List A) (assignment : Assignment A)
    (options : EvalOptions) : Except (Fault (EvalError K)) A :=
  match kind with
  | .leaf id =>
      match assignment.get? id with
      | some value => Fault.report (options.check idx "variable" value)
      | none => .error (.error (.unboundVariable id idx))
  | .constant value => Fault.report (options.check idx "constant" (Numeric.constant value))
  | .operator op _ => do
      let value ← Fault.contract (op.apply args)
      Fault.report (options.check idx op.name value)

/-- Visit one node whose children have been visited. -/
def evalVisit (graph : Graph K) (assignment : Assignment A) (options : EvalOptions)
    (memo : Array (Option A)) (idx : NodeIdx) : Except (Fault (EvalError K)) (Array (Option A)) := do
  let node ← Fault.contract (graph.node idx)
  let args ← Fault.contract (node.children.mapM (visited memo))
  let value ← evalNode node.kind idx args assignment options
  return memo.setIfInBounds idx (some value)

/-- The value of a root: its subtree is visited once, in order. -/
def eval (graph : Graph K) (root : NodeIdx) (assignment : Assignment A) (options : EvalOptions) :
    Except (Fault (EvalError K)) A := do
  let order ← Fault.contract (graph.subtree root)
  let memo ← order.foldlM (graph.evalVisit assignment options) (Array.replicate (root + 1) none)
  match memo[root]?.join with
  | some value => return value
  | none => throw (.violation .rootNotVisited)

/-- The values at several points, each an evaluation of its own. -/
def evalPoints (graph : Graph K) (root : NodeIdx) (points : List (Assignment A))
    (options : EvalOptions) : List (Except (Fault (EvalError K)) A) :=
  points.map fun point => graph.eval root point options

end Graph

end MixedInteger
