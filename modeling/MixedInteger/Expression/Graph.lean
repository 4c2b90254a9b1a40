import MixedInteger.Expression.Node

/-! # Expression graphs

A graph owns the nodes of one or more expressions. Insertion assigns consecutive
indices, and the children of a node have to be inserted before it, so every
child index lies below its parent's and ascending order is an evaluation order.
The graph also keeps each node's structural depth: variables have depth zero,
constants one, and an operator lies one above its deepest child. Depths are 32-bit
words, and the one that is added wraps around.
-/

namespace MixedInteger

/-- Nodes that share subexpressions. -/
structure Graph (K : Type) where
  id : GraphId
  problem : Option ProblemId := none
  nodes : Array (Node K) := #[]
  /-- The structural depths, by index. -/
  depths : Array UInt32 := #[]

/-- The answer of a step on a graph, and the graph that the step leaves. -/
abbrev GraphAnswer (K α : Type) := Except Violation α × Graph K

namespace Graph

variable {K : Type}

/-- The number of nodes. -/
def size (graph : Graph K) : Nat := graph.nodes.size

/-- The node at an index, if there is one. -/
def get? (graph : Graph K) (idx : NodeIdx) : Option (Node K) := graph.nodes[idx]?

/-- The node at an index that the caller knows to be in the graph. -/
def node (graph : Graph K) (idx : NodeIdx) : Except Violation (Node K) :=
  match graph.get? idx with
  | some node => .ok node
  | none => .error (.indexOutOfBounds graph.size idx)

/-- The structural depth at an index that the caller knows to be in the graph. -/
def vertexDepth (graph : Graph K) (idx : NodeIdx) : Except Violation UInt32 :=
  match graph.depths[idx]? with
  | some depth => .ok depth
  | none => .error (.indexOutOfBounds graph.depths.size idx)

/-- The largest structural depth, zero if there are no nodes. -/
def maxDepth (graph : Graph K) : UInt32 := graph.depths.foldl max 0

/-- A free node that names neither another graph nor another problem may be
inserted. -/
def checkClaims (graph : Graph K) (node : Node K) : Except Violation Unit :=
  if node.isAttached then .error (.alreadyAttached node.uid)
  else
    match node.graph.filter (· ≠ graph.id) with
    | some claimed => .error (.otherGraphClaimed node.uid claimed graph.id)
    | none =>
        match node.problem, graph.problem with
        | some claimed, some owner =>
            if claimed = owner then .ok ()
            else .error (.otherProblemClaimed node.uid claimed owner)
        | _, _ => .ok ()

/-- The depth of a child of a node that is being inserted. -/
def childDepth (graph : Graph K) (node : Node K) (child : NodeIdx) : Except Violation UInt32 :=
  if child < graph.size then graph.vertexDepth child
  else .error (.missingChild child node.uid graph.id)

/-- The structural depth a node takes on when it is inserted. The children are looked
up from left to right. -/
def depthOf (graph : Graph K) (node : Node K) : Except Violation UInt32 :=
  match node.kind with
  | .leaf _ => .ok 0
  | .constant _ => .ok 1
  | .operator _ children => do
      let depths ← children.mapM (graph.childDepth node)
      return depths.foldl max 0 + 1

/-- The node as the graph holds it once it has taken the node over. -/
def attach (graph : Graph K) (node : Node K) : Node K :=
  { node with
    idx := some graph.size
    graph := some graph.id
    problem := graph.problem.orElse fun _ => node.problem }

/-- Take a node over under the next index. What the node names, the index and the
children are checked in this order, and then the node and its depth are stored. -/
def insert (graph : Graph K) (node : Node K) : GraphAnswer K NodeIdx :=
  match graph.checkClaims node with
  | .error broken => (.error broken, graph)
  | .ok () =>
      match Position.graphNode.check graph.size with
      | .error broken => (.error broken, graph)
      | .ok idx =>
          match graph.depthOf node with
          | .error broken => (.error broken, graph)
          | .ok depth =>
              (.ok idx, { graph with
                nodes := graph.nodes.push (graph.attach node)
                depths := graph.depths.push depth })

/-- Change the depth hint of a node, which is the only change that a node
accepts once it is attached. -/
def setDepth (graph : Graph K) (idx : NodeIdx) (depth : Nat) : GraphAnswer K Unit :=
  match graph.node idx with
  | .error broken => (.error broken, graph)
  | .ok node => (.ok (), { graph with nodes := graph.nodes.setIfInBounds idx { node with depth } })

/-- Whether a node is the one that the graph holds at the index of the node. -/
def owns (graph : Graph K) (node : Node K) : Bool :=
  node.graph == some graph.id && (node.idx.bind graph.get?).any fun held => held.same node

/-- A node that the graph does not hold breaks the contract of its caller. -/
def checkOwns (graph : Graph K) (node : Node K) : Except Violation Unit :=
  if graph.owns node then .ok () else .error (.notOwned node.uid graph.id)

/-- The index of a node that the caller claims to be held by the graph. -/
def ownedIdx (graph : Graph K) (node : Node K) : Except Violation NodeIdx :=
  match node.idx with
  | some idx => do
      graph.checkOwns node
      return idx
  | none => .error (.notOwned node.uid graph.id)

/-- All indices by structural depth, ties broken by index. -/
def topologicalOrder (graph : Graph K) : List NodeIdx :=
  (List.range graph.size).mergeSort fun left right =>
    graph.depths.getD left 0 < graph.depths.getD right 0
      || (graph.depths.getD left 0 == graph.depths.getD right 0 && left ≤ right)

end Graph

end MixedInteger
