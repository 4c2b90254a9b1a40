import MixedInteger.Model.Problem

/-! # Building a problem

A builder holds a problem together with its graph and the source of node
identities. Every step answers with a result and the builder that is left, also
when it fails: a failed step changes neither the problem nor the graph, but a
node that is created and then refused has used up its identity.
-/

namespace MixedInteger

/-- A problem under construction. -/
structure Builder (K : Type) where
  problem : Problem K
  graph : Graph K
  uids : UidSource

/-- A step that answers in the state it leaves. -/
abbrev BuildStep (K α : Type) := Builder K → Except (Fault (ModelError K)) α × Builder K

namespace Builder

variable {K : Type}

/-- A leaf may only name a declared variable. -/
def checkDeclared (builder : Builder K) (kind : NodeKind K) : Except Violation Unit :=
  match kind.leafId? with
  | some id =>
      if id < builder.problem.decisions.length then .ok ()
      else .error (.undeclaredVariable id builder.problem.id)
  | none => .ok ()

/-- Offer a node to the problem's graph. -/
def offer (node : Node K) : BuildStep K NodeIdx := fun builder =>
  let (answer, graph) := builder.graph.insert node
  (Fault.contract answer, { builder with graph })

/-- Attach a node that was created elsewhere. -/
def insertVertex (node : Node K) : BuildStep K NodeIdx := fun builder =>
  match builder.checkDeclared node.kind with
  | .error broken => (.error (.violation broken), builder)
  | .ok () => offer node builder

/-- Create a node and attach it. -/
def insertNew (kind : NodeKind K) : BuildStep K NodeIdx := fun builder =>
  match Node.create builder.uids kind with
  | (.ok node, uids) => insertVertex node { builder with uids }
  | (.error broken, uids) => (.error (.violation broken), { builder with uids })

/-- Attach a new constant. -/
def constant (value : K) : BuildStep K NodeIdx := insertNew (.constant value)

/-- Attach a new operator over nodes of the graph. -/
def operator (op : Operator K) (children : List NodeIdx) : BuildStep K NodeIdx :=
  insertNew (.operator op children)

/-- Attach the leaf of a variable that is about to be declared. -/
def insertLeaf (id : VariableId) : BuildStep K NodeIdx := fun builder =>
  match Node.create builder.uids (.leaf id) with
  | (.ok node, uids) => offer node { builder with uids }
  | (.error broken, uids) => (.error (.violation broken), { builder with uids })

/-- A root that lies in the problem's graph. -/
def checkRoot (builder : Builder K) (root : NodeIdx) : Except (ModelError K) Unit :=
  if root < builder.graph.size then .ok () else .error (.foreignNode root)

section Bounded

variable [Scalar K]

/-- What is checked before a variable is declared, in this order. -/
def checkVariable (builder : Builder K) (name : String) (bounds : Bounds K) :
    Except (Fault (ModelError K)) VariableId := do
  Fault.report (builder.problem.checkName .decisions name)
  Fault.report bounds.check
  Fault.contract (Position.problemVariable.check builder.problem.decisions.length)

/-- Declare a variable together with its leaf. -/
def addVariable (name : String) (bounds : Bounds K) (domain : Domain) :
    BuildStep K VariableId := fun builder =>
  let bounds := bounds.withDefaults domain
  match builder.checkVariable name bounds with
  | .error fault => (.error fault, builder)
  | .ok id =>
      match insertLeaf id builder with
      | (.error fault, rest) => (.error fault, rest)
      | (.ok node, rest) =>
          (.ok id, { rest with
            problem := { rest.problem with
              decisions := rest.problem.decisions ++ [{ name, bounds, domain, node }] } })

/-- Replace the bounds of a variable. -/
def setBounds (id : VariableId) (bounds : Bounds K) : BuildStep K Unit := fun builder =>
  match bounds.check with
  | .error error => (.error (.error error), builder)
  | .ok () =>
      match builder.problem.decisions[id]? with
      | none => (.error (.error (.unknownVariable id)), builder)
      | some declared =>
          (.ok (), { builder with
            problem := { builder.problem with
              decisions := builder.problem.decisions.set id { declared with bounds } } })

/-- What is checked before a constraint is added, in this order. -/
def checkConstraint (builder : Builder K) (name : String) (root : NodeIdx) (bounds : Bounds K) :
    Except (ModelError K) Unit := do
  builder.checkRoot root
  bounds.check
  builder.problem.checkName .constraints name

/-- Add a constraint and answer with its position. -/
def addConstraint (name : String) (root : NodeIdx) (bounds : Bounds K) : BuildStep K Nat :=
  fun builder =>
    match builder.checkConstraint name root bounds with
    | .error error => (.error (.error error), builder)
    | .ok () =>
        (.ok builder.problem.constraints.length, { builder with
          problem := { builder.problem with
            constraints := builder.problem.constraints ++ [{ name, root, bounds }] } })

end Bounded

/-- What is checked before an objective is added, in this order. -/
def checkObjective (builder : Builder K) (name : String) (root : NodeIdx) :
    Except (ModelError K) Unit := do
  builder.checkRoot root
  builder.problem.checkName .objectives name

/-- Add an objective and answer with its position. -/
def addObjective (name : String) (root : NodeIdx) (sense : Sense) : BuildStep K Nat :=
  fun builder =>
    match builder.checkObjective name root with
    | .error error => (.error (.error error), builder)
    | .ok () =>
        (.ok builder.problem.objectives.length, { builder with
          problem := { builder.problem with
            objectives := builder.problem.objectives ++ [{ name, root, sense }] } })

end Builder

end MixedInteger
