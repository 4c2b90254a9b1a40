import MixedInteger.Proofs.Expression.Valuation

/-! # Unfolding

The meaning of a node in some domain is computed by unfolding: every use of a
shared node is a copy of its own. Evaluation with sharing finds the meaning of
the root when the variables below it are bound and values are not checked
(`Graph.eval_eq_interpret`).
-/

namespace MixedInteger

variable {K A B : Type}

/-- What the parts of an expression mean in some domain. -/
structure Interpretation (K B : Type) where
  leaf : VariableId → B
  constant : K → B
  /-- The meaning of an operator, given the meanings of the children in order. -/
  operator : Operator K → List B → B

/-- The values of expressions in a numeric domain, given those of the variables.
Zero stands for the value of an operator on a number of arguments that it does not
take. -/
def Interpretation.values [Numeric K A] (point : VariableId → A) : Interpretation K A where
  leaf := point
  constant := Numeric.constant
  operator op args := (op.apply args).toOption.getD 0

/-- A seeded point binds the variables that it has entries for. -/
theorem Assignment.get?_seeded [Numeric K A] {point : List K} {id : VariableId}
    (inside : id < point.length) :
    (seeded point : Assignment A).get? id = some (Numeric.seed id point[id]) := by
  simp [get?, seeded, ofList, inside]

namespace Graph

/-- The meaning of a node. The graphs that insertions build have a node for every
child, and it comes before its parent; anything else would mean zero. -/
def interpret [Zero B] (graph : Graph K) (meaning : Interpretation K B) (idx : NodeIdx) : B :=
  match graph.kind? idx with
  | some (.leaf id) => meaning.leaf id
  | some (.constant value) => meaning.constant value
  | some (.operator op children) =>
      meaning.operator op (children.map fun child =>
        if child < idx then interpret graph meaning child else 0)
  | none => 0
termination_by idx

/-- Whether no exponent of a power below a root depends on a variable. -/
def ConstantExponents (graph : Graph K) (root : NodeIdx) : Prop :=
  ∀ idx base exponent, graph.Reaches root idx →
    graph.kind? idx = some (.operator .power [base, exponent]) →
      ∀ id, ¬ graph.Occurs exponent id

variable {graph : Graph K} {root idx : NodeIdx}

theorem exists_node_of_kind? {kind : NodeKind K} (known : graph.kind? idx = some kind) :
    ∃ node, graph.get? idx = some node ∧ node.kind = kind :=
  Option.map_eq_some_iff.mp known

/-- A child is below its operator. -/
theorem reaches_child {op : Operator K} {children : List NodeIdx}
    (known : graph.kind? idx = some (.operator op children)) {child : NodeIdx}
    (member : child ∈ children) : graph.Reaches idx child := by
  obtain ⟨node, held, kind⟩ := exists_node_of_kind? known
  refine Relation.ReflTransGen.single ⟨node, held, ?_⟩
  rwa [Node.children, kind]

/-- A fact about every node below a root follows from what the children of a node
say about the node. -/
theorem WellFormed.induction (wellFormed : graph.WellFormed) (inside : root < graph.size)
    {motive : NodeIdx → Prop}
    (leaf : ∀ idx id, graph.Reaches root idx → graph.kind? idx = some (.leaf id) → motive idx)
    (constant : ∀ idx value, graph.Reaches root idx →
      graph.kind? idx = some (.constant value) → motive idx)
    (operator : ∀ idx op children, graph.Reaches root idx →
      graph.kind? idx = some (.operator op children) →
        (∀ child ∈ children, motive child) → motive idx)
    (reaches : graph.Reaches root idx) : motive idx := by
  induction idx using Nat.strongRecOn with
  | ind idx ih =>
      obtain ⟨node, held⟩ := reaches.exists_node wellFormed inside
      have known := kind?_eq held
      cases kind : node.kind with
      | leaf id => exact leaf idx id reaches (kind ▸ known)
      | constant value => exact constant idx value reaches (kind ▸ known)
      | operator op children =>
          rw [kind] at known
          refine operator idx op children reaches known fun child member => ?_
          refine ih child (wellFormed.child_lt held ?_) (reaches.trans (reaches_child known member))
          rwa [Node.children, kind]

section Interpret

variable [Zero B] {meaning : Interpretation K B}

theorem interpret_leaf {id : VariableId} (known : graph.kind? idx = some (.leaf id)) :
    graph.interpret meaning idx = meaning.leaf id := by
  rw [interpret, known]

theorem interpret_constant {value : K} (known : graph.kind? idx = some (.constant value)) :
    graph.interpret meaning idx = meaning.constant value := by
  rw [interpret, known]

/-- An operator means what its operation makes of the meanings of the children. -/
theorem interpret_operator (wellFormed : graph.WellFormed) {op : Operator K}
    {children : List NodeIdx} (known : graph.kind? idx = some (.operator op children)) :
    graph.interpret meaning idx =
      meaning.operator op (children.map (graph.interpret meaning)) := by
  obtain ⟨node, held, kind⟩ := exists_node_of_kind? known
  rw [interpret, known]
  refine congrArg (meaning.operator op) (List.map_congr_left fun child member => ?_)
  refine if_pos (wellFormed.child_lt held ?_)
  rwa [Node.children, kind]

end Interpret

variable [Numeric K A] {assignment : Assignment A} {point : VariableId → A}

/-- An operator has a value on the meanings of its children. -/
theorem apply_eq_ok_interpret (wellFormed : graph.WellFormed) {op : Operator K}
    {children : List NodeIdx} (known : graph.kind? idx = some (.operator op children)) :
    op.apply (children.map (graph.interpret (.values point))) =
      .ok (graph.interpret (.values point) idx) := by
  obtain ⟨node, held, kind⟩ := exists_node_of_kind? known
  have formed := wellFormed.arity held
  rw [kind] at formed
  obtain ⟨value, applied⟩ := Operator.exists_apply_eq_ok formed
    (List.length_map (graph.interpret (.values point)))
  rw [interpret_operator wellFormed known, applied]
  change _ = Except.ok ((op.apply _).toOption.getD 0)
  rw [applied]
  rfl

/-- Evaluation finds the meaning of the root. -/
theorem eval_eq_interpret (wellFormed : graph.WellFormed) (inside : root < graph.size)
    (bound : ∀ id, graph.Occurs root id → assignment.get? id = some (point id)) :
    graph.eval root assignment { checkFinite := false } =
      .ok (graph.interpret (.values point) root) := by
  refine eval_eq_ok_of_valuation wellFormed inside fun idx reaches => ?_
  obtain ⟨node, held⟩ := reaches.exists_node wellFormed inside
  have known := kind?_eq held
  refine ⟨node, held, ?_⟩
  rw [Node.children]
  cases kind : node.kind with
  | leaf id =>
      rw [kind] at known
      rw [evalNode, bound id ⟨idx, reaches, known⟩, interpret_leaf known]
      rfl
  | constant value =>
      rw [kind] at known
      rw [interpret_constant known]
      rfl
  | operator op children =>
      rw [kind] at known
      rw [NodeKind.children, evalNode, apply_eq_ok_interpret wellFormed known]
      rfl

/-- At a seeded point that binds the variables of the root, evaluation finds the
meaning of the root where every variable is seeded with its entry. -/
theorem eval_seeded [Zero K] (wellFormed : graph.WellFormed) (inside : root < graph.size)
    {point : List K} (bound : ∀ id, graph.Occurs root id → id < point.length) :
    graph.eval root (Assignment.seeded point : Assignment A) { checkFinite := false } =
      .ok (graph.interpret (.values fun id => Numeric.seed id (point.getD id 0)) root) := by
  refine eval_eq_interpret wellFormed inside fun id occurs => ?_
  have bound := bound id occurs
  have entry : point[id] = point.getD id 0 := by simp [bound]
  rw [Assignment.get?_seeded bound, entry]

end Graph

end MixedInteger
