import MixedInteger.Expression.Evaluation

/-! # Degree analysis

The polynomial degree of a root, computed over its subtree in ascending order by
the operators' local degree rules.
-/

namespace MixedInteger.Graph

variable {K : Type} [Scalar K]

/-- The value of the second child, when that is a constant node. -/
def constantExponent (graph : Graph K) (children : List NodeIdx) : Option K :=
  (children[1]?.bind graph.get?).bind fun node => node.kind.constantValue?

/-- The degree of one node, given the degrees of its children in order. -/
def nodeDegree (graph : Graph K) (kind : NodeKind K) (degrees : List Degree) :
    Except Violation Degree :=
  match kind with
  | .leaf _ => .ok (.known 1)
  | .constant _ => .ok (.known 0)
  | .operator op children => op.degree degrees (graph.constantExponent children)

/-- The visit of a node whose children have been visited. -/
def degreeVisit (graph : Graph K) (memo : Array (Option Degree)) (idx : NodeIdx) :
    Except Violation (Array (Option Degree)) := do
  let node ← graph.node idx
  let degrees ← node.children.mapM (visited memo)
  let degree ← graph.nodeDegree node.kind degrees
  return memo.setIfInBounds idx (some degree)

/-- The degree of a root: its subtree is visited once, in order. -/
def degree (graph : Graph K) (root : NodeIdx) : Except Violation Degree := do
  let order ← graph.subtree root
  let memo ← order.foldlM graph.degreeVisit (Array.replicate (root + 1) none)
  match memo[root]?.join with
  | some degree => return degree
  | none => throw .rootNotVisited

end MixedInteger.Graph
