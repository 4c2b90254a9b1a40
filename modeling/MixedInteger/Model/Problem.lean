import MixedInteger.Expression.DegreeAnalysis

/-! # Problems

A problem lists the variables, constraints and objectives of one optimisation
problem. Everything it refers to lives in the problem's own graph. Names are
unique among the variables, among the constraints and among the objectives, and
bounds are never undefined and never cross.
-/

namespace MixedInteger

/-- The values a variable may take. -/
inductive Domain where
  | real
  | integer
  | binary
  deriving DecidableEq, Repr

inductive Sense where
  | minimize
  | maximize
  deriving DecidableEq, Repr

/-- A lower and an upper bound, either of which may be absent. -/
structure Bounds (K : Type) where
  lower : Option K := none
  upper : Option K := none
  deriving DecidableEq, Repr

/-- A decision variable. -/
structure Variable (K : Type) where
  /-- The name, unique among the variables. -/
  name : String
  bounds : Bounds K
  /-- The values the variable may take. -/
  domain : Domain
  /-- The leaf that stands for the variable. -/
  node : NodeIdx
  deriving DecidableEq, Repr

/-- A bounded expression. -/
structure Constraint (K : Type) where
  /-- The name, unique among the constraints. -/
  name : String
  root : NodeIdx
  bounds : Bounds K
  deriving DecidableEq, Repr

/-- An expression to optimise. -/
structure Objective where
  /-- The name, unique among the objectives. -/
  name : String
  root : NodeIdx
  sense : Sense
  deriving DecidableEq, Repr

/-- An optimisation problem. -/
structure Problem (K : Type) where
  id : ProblemId
  name : String
  /-- The graph that holds every expression of the problem. -/
  graph : GraphId
  /-- The variables; a variable's position is its identity. -/
  decisions : List (Variable K) := []
  /-- The constraints, in the order they were added. -/
  constraints : List (Constraint K) := []
  /-- The objectives, in the order they were added. -/
  objectives : List Objective := []
  deriving DecidableEq, Repr

/-- The kinds of thing that carry a name inside a problem. -/
inductive Named where
  | decisions
  | constraints
  | objectives
  deriving DecidableEq, Repr

def Named.text : Named → String
  | .decisions => "variable"
  | .constraints => "constraint"
  | .objectives => "objective"

/-- A back-reference that leads nowhere. -/
inductive ReferenceError where
  /-- The node names no owner of this kind. -/
  | unset (kind : Kind)
  /-- The owner is gone. -/
  | freed (kind : Kind) (slot : String)
  deriving DecidableEq, Repr

/-- The errors of a model. -/
inductive ModelError (K : Type) where
  /-- A key or a back-reference leads nowhere. -/
  | reference (error : ReferenceError)
  | duplicateName (kind : Named) (name : String)
  /-- A root is not in the problem's graph. -/
  | foreignNode (node : NodeIdx)
  | unknownVariable (id : VariableId)
  | unknownObjective (position : Nat)
  /-- A bound is undefined, or the lower bound is above the upper one. -/
  | invalidBounds (bounds : Bounds K)
  | eval (error : EvalError K)
  deriving DecidableEq, Repr

namespace Bounds

variable {K : Type} [Scalar K]

/-- Whether no bound is undefined and the bounds do not cross. -/
def isValid (bounds : Bounds K) : Bool :=
  !bounds.lower.any Scalar.isNaN && !bounds.upper.any Scalar.isNaN
    && !(bounds.lower.any fun lower => bounds.upper.any (Scalar.exceeds lower))

/-- Whether bounds are valid. -/
def check (bounds : Bounds K) : Except (ModelError K) Unit :=
  if bounds.isValid then .ok () else .error (.invalidBounds bounds)

/-- The bounds of a variable over a domain: a binary variable lies between zero
and one unless it is told otherwise. -/
def withDefaults (bounds : Bounds K) : Domain → Bounds K
  | .binary => ⟨bounds.lower.orElse fun _ => some 0, bounds.upper.orElse fun _ => some 1⟩
  | _ => bounds

end Bounds

namespace Problem

variable {K : Type}

/-- The variable of a name. -/
def variableByName? (problem : Problem K) (name : String) : Option VariableId :=
  problem.decisions.findIdx? fun declared => declared.name == name

/-- The first constraint of a name. -/
def constraintByName? (problem : Problem K) (name : String) : Option (Constraint K) :=
  problem.constraints.find? fun declared => declared.name == name

/-- The leaf of a variable. -/
def variableNode? (problem : Problem K) (id : VariableId) : Option NodeIdx :=
  problem.decisions[id]?.map Variable.node

/-- Whether a declaration of a kind bears a name. -/
def isTaken (problem : Problem K) (kind : Named) (name : String) : Bool :=
  match kind with
  | .decisions => problem.decisions.any fun declared => declared.name == name
  | .constraints => problem.constraints.any fun declared => declared.name == name
  | .objectives => problem.objectives.any fun declared => declared.name == name

/-- Whether a name is free. -/
def checkName (problem : Problem K) (kind : Named) (name : String) :
    Except (ModelError K) Unit :=
  if problem.isTaken kind name then .error (.duplicateName kind name) else .ok ()

end Problem

end MixedInteger
