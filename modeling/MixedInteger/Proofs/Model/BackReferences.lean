import MixedInteger.Proofs.Model.Ownership

/-! # Back-references

A node that a graph holds names the graph and its place there, and the problem of the
graph if there is one (`Graph.Placed`). A graph without a problem leaves a node the
problem that it names. Such a node is the only one in any graph that can lead to a
problem that does not own it (`Model.session_backReferences`,
`Model.problemOf_claimedElsewhere`).
-/

namespace MixedInteger

variable {K : Type}

namespace Graph

variable {graph other : Graph K} {idx : NodeIdx} {node : Node K}

/-- A node that a graph holds is attached. -/
theorem Placed.isAttached (placed : graph.Placed) (held : graph.get? idx = some node) :
    node.isAttached = true := by
  rw [Node.isAttached, placed.idx_eq idx node held, Option.isSome_some]

/-- A graph owns the nodes that it holds. -/
theorem Placed.checkOwns_eq_ok (placed : graph.Placed) (held : graph.get? idx = some node) :
    graph.checkOwns node = .ok () := by
  have owns : graph.owns node = true := by
    simp [owns, placed.graph_eq idx node held, placed.idx_eq idx node held, held, Node.same]
  rw [checkOwns, if_pos owns]

/-- No graph owns a node of a graph under another key. -/
theorem Placed.checkOwns_eq_error (placed : graph.Placed) (held : graph.get? idx = some node)
    (differs : other.id ≠ graph.id) :
    other.checkOwns node = .error (.notOwned node.uid other.id) := by
  have foreign : other.owns node = false := by
    simp [owns, placed.graph_eq idx node held, Ne.symm differs]
  rw [checkOwns, foreign]
  rfl

end Graph

namespace Model

variable {model : Model K} {node : Node K}

/-- The graph that a node names is found if it is live and owns the node. -/
theorem graphOf_eq_ok {key : GraphId} {graph : Graph K} (named : node.graph = some key)
    (live : model.graphs.get? key = some graph) (owns : graph.checkOwns node = .ok ()) :
    model.graphOf node = .ok graph := by
  have found := Fault.report_eq_ok_iff.mpr (graph_eq_ok_iff.mpr live)
  simp only [graphOf, named, found, Outcome.ok_bind, owns]
  rfl

/-- A node that names no problem has none to find. -/
theorem problemOf_of_none (unnamed : node.problem = none) :
    model.problemOf node = .error (.error (.unset .problem)) := by
  rw [problemOf, unnamed]
  rfl

section Attached

variable {id : ProblemId} (attached : node.isAttached = true) (named : node.problem = some id)
include attached named

/-- The problem that an attached node names answers for it if its graph owns the node. -/
theorem problemOf_of_ok {problem : Problem K} {graph : Graph K}
    (found : model.problemWithGraph id = .ok (problem, graph)) :
    model.problemOf node = (Fault.contract (graph.checkOwns node)).map fun _ => problem := by
  obtain ⟨live, liveGraph⟩ := problemWithGraph_eq_ok_iff.mp found
  have found := Fault.report_eq_ok_iff.mpr (problem_eq_ok_iff.mpr live)
  have foundGraph := Fault.report_eq_ok_iff.mpr (graph_eq_ok_iff.mpr liveGraph)
  simp only [problemOf, named, found, Outcome.ok_bind, attached, ↓reduceIte, foundGraph]
  cases Fault.contract (graph.checkOwns node) <;> rfl

/-- If the problem or its graph is gone, the search for the node's problem says which. -/
theorem problemOf_of_error {error : ReferenceError}
    (lost : model.problemWithGraph id = .error error) :
    model.problemOf node = .error (.error error) := by
  unfold problemWithGraph at lost
  simp only [problemOf, named, attached, ↓reduceIte]
  cases found : model.problem id with
  | error _ =>
      rw [found] at lost
      cases lost
      rfl
  | ok problem =>
      rw [found, Outcome.ok_bind] at lost
      cases foundGraph : model.graph problem.graph with
      | error _ =>
          rw [foundGraph] at lost
          cases lost
          simp only [Fault.report, Except.mapError, Outcome.ok_bind, foundGraph]
          rfl
      | ok graph =>
          rw [foundGraph] at lost
          cases lost

end Attached

/-- A held node that names a problem with a graph breaks the contract of `problemOf`
exactly when the graph is another one. -/
theorem Coherent.problemOf_eq_violation_iff (coherent : model.Coherent) {key : GraphId}
    {graph : Graph K} {idx : NodeIdx} (placed : graph.Placed)
    (live : model.graphs.get? key = some graph) (held : graph.get? idx = some node)
    {claimed : ProblemId} {problem : Problem K} {other : Graph K} {broken : Violation}
    (named : node.problem = some claimed)
    (found : model.problemWithGraph claimed = .ok (problem, other)) :
    model.problemOf node = .error (.violation broken) ↔
      problem.graph ≠ key ∧ broken = .notOwned node.uid problem.graph := by
  have liveOther := (problemWithGraph_eq_ok_iff.mp found).2
  rw [problemOf_of_ok (placed.isAttached held) named found]
  by_cases same : problem.graph = key
  · cases live.symm.trans (same ▸ liveOther)
    rw [placed.checkOwns_eq_ok held]
    exact ⟨nofun, fun ⟨differs, _⟩ => absurd same differs⟩
  · have sameKey := coherent.graph_id key graph live
    have otherKey := coherent.graph_id problem.graph other liveOther
    rw [placed.checkOwns_eq_error held (by rwa [otherKey, sameKey]), otherKey]
    simp only [Fault.contract, Except.mapError, Except.map, Except.error.injEq,
      Fault.violation.injEq, ne_eq, same, not_false_eq_true, true_and, eq_comm]

variable [Scalar K]

/-- In every session all graphs hold their nodes in place. -/
theorem placed_session (uids : UidSource) (requests : List (Request K)) {key : GraphId}
    {graph : Graph K} (live : (session { uids } requests).graphs.get? key = some graph) :
    graph.Placed := by
  induction requests using List.reverseRecOn generalizing graph with
  | nil => cases live
  | append_singleton requests request ih =>
      rw [session_concat] at live
      obtain ⟨earlier, before, grown⟩ | ⟨-, owner, rfl, -⟩ :=
        (step_perform _ request).graph_before live
      · exact (ih before).step grown
      · exact Graph.placed_empty key owner

/-- **Held nodes lead to their owners.** After any requests of an empty model, a node that
a live graph holds leads to the graph. If the graph belongs to a problem, then the node
names the problem and leads to it. If neither the graph nor the node names a problem, then
the node leads to no problem. A node breaks the contract of `problemOf` exactly when it
names a problem and its graph does not, and the problem is live and has another graph. -/
theorem session_backReferences {uids : UidSource} {requests : List (Request K)}
    {model : Model K} (reached : session { uids } requests = model) {key : GraphId}
    {graph : Graph K} {idx : NodeIdx} {node : Node K}
    (live : model.graphs.get? key = some graph) (held : graph.get? idx = some node) :
    model.graphOf node = .ok graph ∧
    (∀ owner, graph.problem = some owner → node.problem = some owner ∧
      ∃ problem, model.problems.get? owner = some problem ∧ problem.graph = key ∧
        model.problemOf node = .ok problem) ∧
    (graph.problem = none → node.problem = none →
      model.problemOf node = .error (.error (.unset .problem))) ∧
    ∀ broken, model.problemOf node = .error (.violation broken) ↔
      graph.problem = none ∧ ∃ claimed problem other, node.problem = some claimed ∧
        model.problemWithGraph claimed = .ok (problem, other) ∧ problem.graph ≠ key ∧
        broken = .notOwned node.uid problem.graph := by
  subst reached
  have coherent := coherent_session uids requests
  have placed := placed_session uids requests live
  have sameKey := coherent.graph_id key graph live
  have attached := placed.isAttached held
  have owns := placed.checkOwns_eq_ok held
  have owned (owner : ProblemId) (belongs : graph.problem = some owner) :
      node.problem = some owner ∧
        ∃ problem, (session { uids } requests).problems.get? owner = some problem ∧
          problem.graph = key ∧ (session { uids } requests).problemOf node = .ok problem := by
    have named := placed.problem_eq idx node owner held belongs
    obtain ⟨problem, liveProblem, rfl⟩ := coherent.owner key graph owner live belongs
    refine ⟨named, problem, liveProblem, rfl, ?_⟩
    rw [problemOf_of_ok attached named (problemWithGraph_eq_ok_iff.mpr ⟨liveProblem, live⟩), owns]
    rfl
  refine ⟨graphOf_eq_ok (sameKey ▸ placed.graph_eq idx node held) live owns, owned,
    fun _ unnamed => problemOf_of_none unnamed, fun broken => ⟨fun violated => ?_, ?_⟩⟩
  · -- A graph with a problem leads its nodes to that problem, without a violation.
    have unowned : graph.problem = none := by
      refine Option.eq_none_iff_forall_ne_some.mpr fun owner belongs => ?_
      obtain ⟨-, problem, -, -, found⟩ := owned owner belongs
      cases violated.symm.trans found
    cases named : node.problem with
    | none => cases violated.symm.trans (problemOf_of_none named)
    | some claimed =>
        cases found : (session { uids } requests).problemWithGraph claimed with
        | error _ => cases violated.symm.trans (problemOf_of_error attached named found)
        | ok pair =>
            obtain ⟨problem, other⟩ := pair
            obtain ⟨differs, rfl⟩ := (coherent.problemOf_eq_violation_iff placed live held named
              found).mp violated
            exact ⟨unowned, claimed, problem, other, rfl, found, differs, rfl⟩
  · rintro ⟨-, claimed, problem, other, named, found, differs, rfl⟩
    exact (coherent.problemOf_eq_violation_iff placed live held named found).mpr ⟨differs, rfl⟩

/-- A problem with a constant in its graph. -/
def withConstant : List (Request Float) :=
  [.createProblem "p", .build ⟨0, 0⟩ (.constant 1.0)]

/-- The constant leads to the graph and to the problem. -/
theorem session_backReferences_withConstant :
    ∃ graph node problem, graph.get? 0 = some node ∧
      (session {} withConstant).graphOf node = .ok graph ∧
      (session {} withConstant).problemOf node = .ok problem ∧ graph.problem = some problem.id := by
  have live : ∃ graph, (session {} withConstant).graphs.get? ⟨0, 0⟩ = some graph ∧
      graph.problem = some ⟨0, 0⟩ ∧ ∃ node, graph.get? 0 = some node := ⟨_, rfl, rfl, _, rfl⟩
  obtain ⟨graph, live, belongs, node, held⟩ := live
  obtain ⟨found, owned, -, -⟩ := session_backReferences rfl live held
  obtain ⟨-, problem, liveProblem, -, foundProblem⟩ := owned ⟨0, 0⟩ belongs
  cases liveProblem
  exact ⟨graph, node, _, held, found, foundProblem, belongs⟩

/-- A node names a problem, and a graph without a problem takes it. -/
def claimedElsewhere : List (Request Float) :=
  [.createProblem "p", .createGraph, .createNode (.constant 1.0),
    .insertNode ⟨1, 0⟩ { uid := ⟨0⟩, problem := some ⟨0, 0⟩, kind := .constant 1.0 }]

/-- A held node whose problem is not that of its graph leads to a broken contract. -/
theorem problemOf_claimedElsewhere :
    ∃ graph node, (session {} claimedElsewhere).graphs.get? ⟨1, 0⟩ = some graph ∧
      graph.get? 0 = some node ∧ node.problem ≠ graph.problem ∧
      (session {} claimedElsewhere).problemOf node =
        .error (.violation (.notOwned ⟨0⟩ ⟨0, 0⟩)) :=
  ⟨_, _, rfl, rfl, nofun, rfl⟩

end Model

end MixedInteger
