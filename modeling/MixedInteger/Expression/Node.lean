import MixedInteger.Expression.Operator
import MixedInteger.Identity.UidSource

/-! # Nodes

A node is one vertex of an expression graph: a variable, a constant, or an
operator over earlier nodes. A node starts free and becomes attached when a
graph takes it over, which fixes its index. Its problem and its graph are named
by keys and may be gone by the time the keys are followed.
-/

namespace MixedInteger

/-- What a node stands for. -/
inductive NodeKind (K : Type) where
  | leaf (id : VariableId)
  | constant (value : K)
  | operator (operator : Operator K) (children : List NodeIdx)
  deriving DecidableEq, Repr

namespace NodeKind

variable {K : Type}

/-- The children, which operators alone have. -/
def children : NodeKind K → List NodeIdx
  | operator _ children => children
  | _ => []

/-- The variable of a leaf. -/
def leafId? : NodeKind K → Option VariableId
  | leaf id => some id
  | _ => none

/-- The number of a constant. -/
def constantValue? : NodeKind K → Option K
  | constant value => some value
  | _ => none

/-- The operator of an operator node. -/
def operator? : NodeKind K → Option (Operator K)
  | operator op _ => some op
  | _ => none

/-- Whether an operator accepts its number of children. -/
def checkArity : NodeKind K → Except Violation Unit
  | operator op children =>
      if op.arity.accepts children.length then .ok ()
      else .error (.wrongArity op.name children.length op.arity)
  | _ => .ok ()

end NodeKind

/-- The depth hint of a node for which none was set. -/
def defaultDepth : Nat := 3

/-- A vertex of an expression graph. -/
structure Node (K : Type) where
  uid : Uid
  /-- The position in the graph, once the node is attached. -/
  idx : Option NodeIdx := none
  depth : Nat := defaultDepth
  problem : Option ProblemId := none
  graph : Option GraphId := none
  kind : NodeKind K
  deriving DecidableEq, Repr

namespace Node

variable {K : Type}

/-- A free node with a new identity. The number of children is checked before
an identity is asked for. -/
def create (source : UidSource) (kind : NodeKind K) : Except Violation (Node K) × UidSource :=
  match kind.checkArity with
  | .error broken => (.error broken, source)
  | .ok () => (source.issue.1.map fun uid => { uid, kind }, source.issue.2)

/-- Whether a graph has taken the node. -/
def isAttached (node : Node K) : Bool := node.idx.isSome

/-- Two nodes are the same when they share their identity. -/
def same (left right : Node K) : Bool := left.uid == right.uid

/-- The children of a node. -/
def children (node : Node K) : List NodeIdx := node.kind.children

/-- Fix the index. An index is never replaced by another. -/
def setIdx (node : Node K) (idx : NodeIdx) : Except Violation (Node K) :=
  match node.idx with
  | some current =>
      if current = idx then .ok node else .error (.alreadyIndexed node.uid current)
  | none => .ok { node with idx := some idx }

/-- Name a problem. An attached node does not change its problem. -/
def setProblem (node : Node K) (problem : ProblemId) : Except Violation (Node K) :=
  if node.isAttached ∧ node.problem.any (· ≠ problem) then .error (.attachedToProblem node.uid)
  else .ok { node with problem := some problem }

/-- Name a graph. A node does not change its graph. -/
def setGraph (node : Node K) (graph : GraphId) : Except Violation (Node K) :=
  match node.graph with
  | some current =>
      if current = graph then .ok node else .error (.belongsToGraph node.uid current)
  | none => .ok { node with graph := some graph }

/-- The child at a position. -/
def child? (node : Node K) (index : Nat) : Option NodeIdx := node.children[index]?

/-- The child at a position that has to exist. -/
def nthChild (node : Node K) (index : Nat) : Except Violation NodeIdx :=
  match node.child? index with
  | some child => .ok child
  | none => .error (.noSuchChild index node.uid node.children.length)

end Node

end MixedInteger
