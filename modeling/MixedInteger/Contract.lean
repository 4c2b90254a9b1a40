import MixedInteger.Identity.Key
import MixedInteger.Numeric

/-! # Contract violations

An operation whose caller breaks its contract answers with a violation instead
of a result. Violations are kept apart from the errors an operation is expected
to report, so that a theorem can say which of the two a caller may meet.
-/

namespace MixedInteger

/-- How many children an operator takes. -/
inductive Arity where
  | exactly (count : Nat)
  | atLeast (count : Nat)
  deriving DecidableEq, Repr

namespace Arity

/-- Whether a number of children is accepted. -/
def accepts : Arity → Nat → Bool
  | exactly count, given => given == count
  | atLeast count, given => count ≤ given

def text : Arity → String
  | exactly count => s!"Exactly({count})"
  | atLeast count => s!"AtLeast({count})"

end Arity

/-- The two kinds of dense position, both bounded by the 32-bit words. -/
inductive Position where
  | graphNode
  | problemVariable
  deriving DecidableEq, Repr

namespace Position

def name : Position → String
  | graphNode => "NodeIdx"
  | problemVariable => "VariableId"

def text : Position → Nat → String
  | graphNode, index => NodeIdx.text index
  | problemVariable, index => VariableId.text index

end Position

/-- The ways a caller can break a contract. -/
inductive Violation where
  /-- Every identity has been issued. -/
  | uidsExhausted
  /-- A position does not fit 32 bits. -/
  | positionTooLarge (position : Position)
  /-- An arena has as many slots as there are slot indices. -/
  | arenaFull
  /-- The list of free slots leads to an occupied slot. -/
  | brokenFreeList
  /-- An operator is given a number of children it does not take. -/
  | wrongArity (operator : String) (given : Nat) (arity : Arity)
  /-- An operator is applied to a number of values it does not take. -/
  | argumentCount (operator : String) (given : Nat)
  /-- A node that has an index is given another. -/
  | alreadyIndexed (node : Uid) (current : NodeIdx)
  /-- An attached node is moved to another problem. -/
  | attachedToProblem (node : Uid)
  /-- A node that names a graph is given another. -/
  | belongsToGraph (node : Uid) (current : GraphId)
  /-- A node is asked for a child it does not have. -/
  | noSuchChild (index : Nat) (node : Uid) (count : Nat)
  /-- A graph is asked about a node that it does not hold. -/
  | notOwned (node : Uid) (graph : GraphId)
  /-- An attached node is inserted again. -/
  | alreadyAttached (node : Uid)
  /-- A node is inserted into a graph other than the one it names. -/
  | otherGraphClaimed (node : Uid) (claimed graph : GraphId)
  /-- A node is inserted into the graph of a problem other than the one it names. -/
  | otherProblemClaimed (node : Uid) (claimed owner : ProblemId)
  /-- A node is inserted before one of its children. -/
  | missingChild (child : NodeIdx) (node : Uid) (graph : GraphId)
  /-- A leaf names a variable that its problem does not have. -/
  | undeclaredVariable (id : VariableId) (problem : ProblemId)
  /-- A problem is evaluated in a graph that is not its own. -/
  | foreignGraph (graph : GraphId) (problem : ProblemId)
  /-- There is not one multiplier for each constraint. -/
  | multiplierCount (problem : ProblemId)
  /-- A field is written under the reserved number zero. -/
  | reservedFieldNumber
  /-- A sequence is read or written outside its bounds. -/
  | indexOutOfBounds (size index : Nat)
  /-- A child's result is needed before it is there. -/
  | childNotVisited
  /-- A root's result is needed before it is there. -/
  | rootNotVisited
  deriving DecidableEq, Repr

def Violation.message : Violation → String
  | uidsExhausted => "uid space exhausted"
  | positionTooLarge position => s!"{position.name} exceeds u32::MAX"
  | arenaFull => "arena exceeds u32::MAX slots"
  | brokenFreeList => "free list points at an occupied slot"
  | wrongArity operator given arity =>
      s!"{operator} does not accept {given} children ({arity.text})"
  | argumentCount operator given => s!"{operator} got {given} args"
  | alreadyIndexed node current => s!"node {node.text} already has index {current.text}"
  | attachedToProblem node => s!"attached node {node.text} cannot move to another problem"
  | belongsToGraph node current => s!"node {node.text} already belongs to {current.text}"
  | noSuchChild index node count =>
      s!"child index {index} out of range for node {node.text} with {count} children"
  | notOwned node graph => s!"node {node.text} is not owned by {graph.text}"
  | alreadyAttached node => s!"node {node.text} is already attached"
  | otherGraphClaimed node claimed graph =>
      s!"node {node.text} claims {claimed.text} but is inserted into {graph.text}"
  | otherProblemClaimed node claimed owner =>
      s!"node {node.text} claims {claimed.text} but graph belongs to {owner.text}"
  | missingChild child node graph =>
      s!"child {child.text} of node {node.text} is not in {graph.text}"
  | undeclaredVariable id problem => s!"variable {id.text} is not declared in {problem.text}"
  | foreignGraph graph problem => s!"{graph.text} is not the graph of {problem.text}"
  | multiplierCount problem => s!"one multiplier per constraint of {problem.text}"
  | reservedFieldNumber => "assertion failed: field > 0"
  | indexOutOfBounds size index =>
      s!"index out of bounds: the len is {size} but the index is {index}"
  | childNotVisited => "children precede parents"
  | rootNotVisited => "root is part of its own subtree"

/-- The largest word of 32 bits. -/
def largestWord : Nat := 4294967295

/-- A position, provided that it fits 32 bits. -/
def Position.check (position : Position) (index : Nat) : Except Violation Nat :=
  if index ≤ largestWord then .ok index else .error (.positionTooLarge position)

/-- The failure of an operation: a broken contract, or an error that the
operation reports to its caller. -/
inductive Fault (ε : Type) where
  | violation (broken : Violation)
  | error (reported : ε)
  deriving DecidableEq, Repr

/-- Change what is reported, and keep violations. -/
def Fault.map {ε δ : Type} (f : ε → δ) : Fault ε → Fault δ
  | .violation broken => .violation broken
  | .error reported => .error (f reported)

/-- The outcome of a step whose contract may be broken. -/
def Fault.contract {ε α : Type} (outcome : Except Violation α) : Except (Fault ε) α :=
  outcome.mapError .violation

/-- The outcome of a step that may report an error. -/
def Fault.report {ε α : Type} (outcome : Except ε α) : Except (Fault ε) α :=
  outcome.mapError .error

end MixedInteger
