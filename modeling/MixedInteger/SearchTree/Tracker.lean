import MixedInteger.SearchTree.Coordinate

/-! # Tracking a search tree

A tracker follows the announcements about the nodes of one search tree. A node
is added once, after its parent, and pruned once, after it was added. Nodes may
be added below a pruned node, because branching is announced before the parent
is closed. A rejected announcement leaves the tracker as it is.
-/

namespace MixedInteger

inductive NodeState where
  | opened
  | pruned
  deriving DecidableEq, Repr

/-- An announcement that contradicts earlier ones. -/
inductive ProtocolError where
  | duplicateNode (coordinate : Coordinate)
  | orphanNode (coordinate : Coordinate)
  | unknownNode (coordinate : Coordinate)
  | alreadyPruned (coordinate : Coordinate)
  deriving DecidableEq, Repr

def ProtocolError.message : ProtocolError → String
  | duplicateNode coordinate => s!"node {coordinate.text} was already added"
  | orphanNode coordinate => s!"node {coordinate.text} was added before its parent"
  | unknownNode coordinate => s!"prune of node {coordinate.text}, which was never added"
  | alreadyPruned coordinate => s!"node {coordinate.text} was already pruned"

/-- The nodes of a search tree, as announced so far. -/
structure Tracker where
  /-- The state of every node that was added. -/
  nodes : Std.ExtTreeMap Coordinate NodeState := ∅
  /-- The number of nodes that are open. -/
  openCount : Nat := 0

namespace Tracker

/-- The state that is recorded for a coordinate. -/
def state? (tracker : Tracker) (coordinate : Coordinate) : Option NodeState :=
  tracker.nodes[coordinate]?

/-- Whether a node may be added: it is new, and its parent is recorded. -/
def checkAdd (tracker : Tracker) (coordinate : Coordinate) : Except ProtocolError Unit :=
  if (tracker.state? coordinate).isSome then .error (.duplicateNode coordinate)
  else if coordinate.parent?.any fun parent => (tracker.state? parent).isNone then
    .error (.orphanNode coordinate)
  else .ok ()

/-- Whether a node may be closed: it is recorded and open. -/
def checkPrune (tracker : Tracker) (coordinate : Coordinate) : Except ProtocolError Unit :=
  match tracker.state? coordinate with
  | none => .error (.unknownNode coordinate)
  | some .pruned => .error (.alreadyPruned coordinate)
  | some .opened => .ok ()

/-- Record a node as open. -/
def add (tracker : Tracker) (coordinate : Coordinate) : Except ProtocolError Tracker := do
  tracker.checkAdd coordinate
  return ⟨tracker.nodes.insert coordinate .opened, tracker.openCount + 1⟩

/-- Record a node as pruned. -/
def prune (tracker : Tracker) (coordinate : Coordinate) : Except ProtocolError Tracker := do
  tracker.checkPrune coordinate
  return ⟨tracker.nodes.insert coordinate .pruned, tracker.openCount - 1⟩

def size (tracker : Tracker) : Nat := tracker.nodes.size

def isEmpty (tracker : Tracker) : Bool := tracker.nodes.isEmpty

/-- The number of nodes that are recorded as pruned. -/
def prunedCount (tracker : Tracker) : Nat := tracker.size - tracker.openCount

/-- The open nodes, in the order of their coordinates. -/
def openNodes (tracker : Tracker) : List Coordinate :=
  (tracker.nodes.toList.filter fun node => node.2 = .opened).map Prod.fst

end Tracker

end MixedInteger
