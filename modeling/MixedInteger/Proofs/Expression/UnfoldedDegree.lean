import MixedInteger.Expression.DegreeAnalysis
import MixedInteger.Proofs.Expression.Unfolding

/-! # Unfolded degrees

The degree of a node is determined by its children alone, so the analysis with
sharing finds the degree that unfolding the root gives. On the graphs that
insertions build it always finds one (`Graph.degree_eq`).
-/

namespace MixedInteger

variable {K : Type}

theorem entryAt_eq_ok {α : Type} {entries : List α} {index : Nat}
    (inside : index < entries.length) : entryAt entries index = .ok entries[index] := by
  rw [entryAt, List.getElem?_eq_getElem inside]

variable [Scalar K]

/-- An operator has a degree on the degrees of the children of a created node. -/
theorem Operator.exists_degree_eq_ok {operator : Operator K} {children : List NodeIdx}
    (formed : (NodeKind.operator operator children).checkArity = .ok ()) {degrees : List Degree}
    (count : degrees.length = children.length) (constantExponent : Option K) :
    ∃ degree, operator.degree degrees constantExponent = .ok degree := by
  have accepted : operator.arity.accepts degrees.length = true := by
    rw [NodeKind.checkArity, ← count] at formed
    split at formed
    · assumption
    · cases formed
  have entry (index : Nat) (inside : index < degrees.length) :
      ∃ degree, entryAt degrees index = .ok degree := ⟨_, entryAt_eq_ok inside⟩
  cases operator with
  | sum => exact ⟨_, rfl⟩
  | linear coefficients offset => exact ⟨_, rfl⟩
  | negation =>
      have single : degrees.length = 1 := beq_iff_eq.mp accepted
      exact entry 0 (by omega)
  | unary function =>
      have single : degrees.length = 1 := beq_iff_eq.mp accepted
      obtain ⟨first, known⟩ := entry 0 (by omega)
      exact ⟨_, by rw [degree, known]; rfl⟩
  | product =>
      have pair : degrees.length = 2 := beq_iff_eq.mp accepted
      obtain ⟨first, known⟩ := entry 0 (by omega)
      obtain ⟨second, alsoKnown⟩ := entry 1 (by omega)
      exact ⟨_, by rw [degree, known, alsoKnown]; rfl⟩
  | power =>
      have pair : degrees.length = 2 := beq_iff_eq.mp accepted
      obtain ⟨first, known⟩ := entry 0 (by omega)
      obtain ⟨second, alsoKnown⟩ := entry 1 (by omega)
      exact ⟨_, by rw [degree, known, alsoKnown]; rfl⟩
  | division =>
      have pair : degrees.length = 2 := beq_iff_eq.mp accepted
      obtain ⟨first, known⟩ := entry 0 (by omega)
      obtain ⟨second, alsoKnown⟩ := entry 1 (by omega)
      rw [degree, known, alsoKnown, Outcome.ok_bind]
      split
      · exact ⟨_, rfl⟩
      · exact ⟨_, rfl⟩

namespace Graph

variable {graph : Graph K} {root idx : NodeIdx} {node : Node K}

/-- The degree of a node, with a copy of its own for every use of a shared node. The
graphs that insertions build have a node for every child, and it comes before its
parent; anything else would be unknown. -/
def unfoldedDegree (graph : Graph K) (idx : NodeIdx) : Degree :=
  match graph.kind? idx with
  | some kind =>
      (graph.nodeDegree kind (kind.children.map fun child =>
        if child < idx then unfoldedDegree graph child else .unknown)).toOption.getD .unknown
  | none => .unknown
termination_by idx

/-- Unfolded degrees meet the degree rule of every node. -/
theorem nodeDegree_unfoldedDegree (wellFormed : graph.WellFormed)
    (held : graph.get? idx = some node) :
    graph.nodeDegree node.kind (node.children.map graph.unfoldedDegree) =
      .ok (graph.unfoldedDegree idx) := by
  have children : (node.kind.children.map fun child =>
      if child < idx then graph.unfoldedDegree child else .unknown) =
        node.children.map graph.unfoldedDegree :=
    List.map_congr_left fun child member => if_pos (wellFormed.child_lt held member)
  have found : ∃ degree,
      graph.nodeDegree node.kind (node.children.map graph.unfoldedDegree) = .ok degree := by
    have formed := wellFormed.arity held
    unfold nodeDegree Node.children
    cases kind : node.kind with
    | leaf id => exact ⟨_, rfl⟩
    | constant value => exact ⟨_, rfl⟩
    | operator op children =>
        rw [kind] at formed
        exact Operator.exists_degree_eq_ok formed (List.length_map _) _
  obtain ⟨degree, known⟩ := found
  have unfolded : graph.unfoldedDegree idx = degree := by
    rw [unfoldedDegree, kind?_eq held]
    simp only [children, known]
    rfl
  rw [known, unfolded]

/-- What the rule of a node gives for the unfolded degrees of its children is the
unfolded degree of the node. -/
theorem unfoldedDegree_eq (wellFormed : graph.WellFormed) (held : graph.get? idx = some node)
    {degree : Degree}
    (rule : graph.nodeDegree node.kind (node.children.map graph.unfoldedDegree) = .ok degree) :
    graph.unfoldedDegree idx = degree :=
  Except.ok.inj ((nodeDegree_unfoldedDegree wellFormed held).symm.trans rule)

/-- The analysis finds the unfolded degree of the root. -/
theorem degree_eq (wellFormed : graph.WellFormed) (inside : root < graph.size) :
    graph.degree root = .ok (graph.unfoldedDegree root) := by
  obtain ⟨order, found, valid⟩ := subtree_spec wellFormed inside
  obtain ⟨memo, traversed, known⟩ := valid.exists_table wellFormed inside graph.unfoldedDegree
    graph.degreeVisit fun idx node memo _ held degrees => by
      rw [degreeVisit, node_eq_ok_iff.mpr held, Outcome.ok_bind, degrees, Outcome.ok_bind,
        nodeDegree_unfoldedDegree wellFormed held]
      rfl
  rw [degree, found, Outcome.ok_bind, traversed, Outcome.ok_bind, known]
  rfl

omit [Scalar K] in
/-- The exponent that the analysis reads off a second child is held by a constant. -/
theorem kind?_of_constantExponent {children : List NodeIdx} {child : NodeIdx} {value : K}
    (second : children[1]? = some child)
    (given : graph.constantExponent children = some value) :
    graph.kind? child = some (.constant value) := by
  rw [constantExponent, second, Option.bind_some] at given
  obtain ⟨node, held, constant⟩ := Option.bind_eq_some_iff.mp given
  rw [kind?_eq held]
  cases kind : node.kind with
  | leaf id =>
      rw [kind] at constant
      cases constant
  | constant other =>
      rw [kind] at constant
      cases constant
      rfl
  | operator op children =>
      rw [kind] at constant
      cases constant

/-- Only a root of the graph has a degree. -/
theorem lt_size_of_degree_eq_ok {degree : Degree} (found : graph.degree root = .ok degree) :
    root < graph.size := by
  obtain ⟨order, searched, -⟩ := Outcome.bind_eq_ok_iff.mp found
  obtain ⟨node, held, -⟩ := Outcome.bind_eq_ok_iff.mp searched
  exact lt_size_of_get?_eq_some (node_eq_ok_iff.mp held)

/-- The degree of a root is that of the expression it unfolds to. -/
theorem unfoldedDegree_of_degree_eq_ok (wellFormed : graph.WellFormed) {degree : Degree}
    (found : graph.degree root = .ok degree) : graph.unfoldedDegree root = degree :=
  Except.ok.inj ((degree_eq wellFormed (lt_size_of_degree_eq_ok found)).symm.trans found)

end Graph

end MixedInteger
