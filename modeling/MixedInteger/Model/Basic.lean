import MixedInteger.Identity.Arena
import MixedInteger.Model.Builder

/-! # Models

A model owns problems and graphs in arenas and hands out their keys. Ownership
runs one way, from the model to its problems and graphs and from a graph to its
nodes; problems and nodes point back through keys, which are resolved on demand
and fail to resolve once the owner is gone.
-/

namespace MixedInteger

/-- The owner of problems and graphs. -/
structure Model (K : Type) where
  uids : UidSource := {}
  problems : Arena .problem (Problem K) := {}
  /-- The graphs, those of the problems included. -/
  graphs : Arena .graph (Graph K) := {}

/-- A step that answers in the model it leaves. -/
abbrev ModelStep (K α : Type) := Model K → Except (Fault (ModelError K)) α × Model K

/-- The error about a key that resolves to nothing any more. -/
def Key.freed {kind : Kind} (key : Key kind) : ReferenceError := .freed kind key.slotText

namespace Model

variable {K : Type}

/-- The problem under a key. -/
def problem (model : Model K) (id : ProblemId) : Except ReferenceError (Problem K) :=
  match model.problems.get? id with
  | some problem => .ok problem
  | none => .error id.freed

/-- The graph under a key. -/
def graph (model : Model K) (id : GraphId) : Except ReferenceError (Graph K) :=
  match model.graphs.get? id with
  | some graph => .ok graph
  | none => .error id.freed

/-- The problem of a key and the graph that holds its nodes. -/
def problemWithGraph (model : Model K) (id : ProblemId) :
    Except ReferenceError (Problem K × Graph K) := do
  let problem ← model.problem id
  let graph ← model.graph problem.graph
  return (problem, graph)

/-- Add an empty problem and its empty graph. The problem has its slot before the graph is
added: if there is no slot for the graph, that of the problem is lost. -/
def createProblem (name : String) : ModelStep K ProblemId := fun model =>
  match model.problems.nextKey with
  | .error broken => (.error (.violation broken), model)
  | .ok id =>
      let claimed := model.problems.claim id
      match model.graphs.insertWith fun graph => { id := graph, problem := some id } with
      | .error broken => (.error (.violation broken), { model with problems := claimed })
      | .ok (graph, graphs) =>
          (.ok id, { model with problems := claimed.fill id { id, name, graph }, graphs })

/-- Add an empty graph that belongs to no problem. -/
def createGraph : ModelStep K GraphId := fun model =>
  match model.graphs.insertWith fun id => { id } with
  | .error broken => (.error (.violation broken), model)
  | .ok (id, graphs) => (.ok id, { model with graphs })

/-- Remove a problem together with its graph. -/
def removeProblem (model : Model K) (id : ProblemId) : Except ReferenceError (Model K) := do
  let problem ← model.problem id
  return { model with
    problems := model.problems.erase id
    graphs := model.graphs.erase problem.graph }

/-- Remove a graph. A problem may be left without its graph. -/
def removeGraph (model : Model K) (id : GraphId) : Except ReferenceError (Model K) := do
  let _ ← model.graph id
  return { model with graphs := model.graphs.erase id }

/-- Run a building step on a problem and keep what it leaves. -/
def build {α : Type} (id : ProblemId) (step : BuildStep K α) : ModelStep K α := fun model =>
  match model.problemWithGraph id with
  | .error error => (.error (.error (.reference error)), model)
  | .ok (problem, graph) =>
      let (answer, rest) := step { problem, graph, uids := model.uids }
      (answer, {
        uids := rest.uids
        problems := model.problems.set id rest.problem
        graphs := model.graphs.set problem.graph rest.graph })

/-- Run a step on a graph and keep what it leaves. -/
def onGraph {α : Type} (id : GraphId) (step : Graph K → GraphAnswer K α) : ModelStep K α :=
  fun model =>
    match model.graph id with
    | .error error => (.error (.error (.reference error)), model)
    | .ok graph =>
        let (answer, rest) := step graph
        (Fault.contract answer, { model with graphs := model.graphs.set id rest })

/-- Insert a node into a graph. -/
def insertNode (id : GraphId) (node : Node K) : ModelStep K NodeIdx :=
  onGraph id fun graph => graph.insert node

/-- Set the depth hint of a node in a graph. -/
def setDepth (id : GraphId) (idx : NodeIdx) (depth : Nat) : ModelStep K Unit :=
  onGraph id fun graph => graph.setDepth idx depth

/-- Make a node with a new identity. -/
def createNode (kind : NodeKind K) : ModelStep K (Node K) := fun model =>
  let (node, uids) := Node.create model.uids kind
  (Fault.contract node, { model with uids })

/-- The graph that a node names, which has to hold the node. -/
def graphOf (model : Model K) (node : Node K) : Except (Fault ReferenceError) (Graph K) := do
  match node.graph with
  | none => throw (.error (.unset .graph))
  | some id =>
      let graph ← Fault.report (model.graph id)
      Fault.contract (graph.checkOwns node)
      return graph

/-- The problem that a node names. The graph of the problem has to hold the node
if the node is attached. -/
def problemOf (model : Model K) (node : Node K) : Except (Fault ReferenceError) (Problem K) := do
  match node.problem with
  | none => throw (.error (.unset .problem))
  | some id =>
      let problem ← Fault.report (model.problem id)
      if node.isAttached then
        let graph ← Fault.report (model.graph problem.graph)
        Fault.contract (graph.checkOwns node)
      return problem

end Model

end MixedInteger
