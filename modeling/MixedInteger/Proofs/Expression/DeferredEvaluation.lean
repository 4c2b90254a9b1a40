import MixedInteger.Proofs.Expression.Valuation

/-! # Evaluation that looks at leaves when they are read

Evaluation can do without values for leaves: a leaf is looked up, and checked,
each time an operator reads it. Every leaf below a root is read, by an operator
or as the root itself, so this evaluation finds the same values as the one that
visits leaves (`Graph.evalDeferred_eq_ok_iff`), although it may report another
error.
-/

namespace MixedInteger

namespace Graph

variable {K A : Type} [Numeric K A] {graph : Graph K} {root : NodeIdx}
  {lookup : VariableId → Option A} {assignment : Assignment A} {options : EvalOptions}

/-- What a node at an origin reads at an index: a leaf is looked up and checked,
and an operator has a value already. -/
def fetch (graph : Graph K) (lookup : VariableId → Option A) (options : EvalOptions)
    (values : NodeIdx → A) (origin idx : NodeIdx) : Except (Fault (EvalError K)) A :=
  match graph.kind? idx with
  | some (.leaf id) =>
      match lookup id with
      | some value => Fault.report (options.check origin "variable" value)
      | none => .error (.error (.unboundVariable id origin))
  | some (.constant value) => Fault.report (options.check idx "constant" (Numeric.constant value))
  | _ => .ok (values idx)

/-- The value of an operator, given values of the operators below it. -/
def operatorValue (graph : Graph K) (lookup : VariableId → Option A) (options : EvalOptions)
    (values : NodeIdx → A) (op : Operator K) (children : List NodeIdx) (idx : NodeIdx) :
    Except (Fault (EvalError K)) A := do
  let args ← children.mapM (graph.fetch lookup options values idx)
  let result ← Fault.contract (op.apply args)
  Fault.report (options.check idx op.name result)

/-- Visit one node: operators take on a value, leaves do not. -/
def deferredVisit (graph : Graph K) (lookup : VariableId → Option A) (options : EvalOptions)
    (values : NodeIdx → A) (idx : NodeIdx) : Except (Fault (EvalError K)) (NodeIdx → A) :=
  match graph.kind? idx with
  | some (.operator op children) =>
      graph.operatorValue lookup options values op children idx >>= fun value =>
        .ok (Function.update values idx value)
  | _ => .ok values

/-- The value of a root after a number of visits. -/
def evalDeferredFrom (graph : Graph K) (root : NodeIdx) (lookup : VariableId → Option A)
    (options : EvalOptions) (order : List NodeIdx) (values : NodeIdx → A) :
    Except (Fault (EvalError K)) A :=
  order.foldlM (graph.deferredVisit lookup options) values >>= fun final =>
    graph.fetch lookup options final root root

/-- The value of a root, with leaves looked at when they are read. -/
def evalDeferred (graph : Graph K) (root : NodeIdx) (lookup : VariableId → Option A)
    (options : EvalOptions) : Except (Fault (EvalError K)) A := do
  let order ← Fault.contract (graph.subtree root)
  graph.evalDeferredFrom root lookup options order fun _ => 0

/-- Values of operators, completed by what the leaves stand for. -/
def completed (graph : Graph K) (lookup : VariableId → Option A) (values : NodeIdx → A)
    (idx : NodeIdx) : A :=
  match graph.kind? idx with
  | some (.leaf id) => (lookup id).getD 0
  | some (.constant value) => Numeric.constant value
  | _ => values idx

/-- What is read at an index is what it is completed by. -/
theorem eq_completed_of_fetch {values : NodeIdx → A} {origin idx : NodeIdx} {value : A}
    (fetched : graph.fetch lookup options values origin idx = .ok value) :
    value = graph.completed lookup values idx := by
  unfold fetch at fetched
  unfold completed
  split at fetched
  · split at fetched
    · rename_i bound
      rw [bound]
      exact EvalOptions.eq_of_check_eq_ok (Fault.report_eq_ok_iff.mp fetched)
    · cases fetched
  · exact EvalOptions.eq_of_check_eq_ok (Fault.report_eq_ok_iff.mp fetched)
  · cases fetched
    rfl

/-- Reading an operator does not fail, and whether a leaf can be read does not
depend on the values of operators. -/
theorem fetch_ok_of_fetch_ok {values others : NodeIdx → A} {origin idx : NodeIdx} {value : A}
    (fetched : graph.fetch lookup options values origin idx = .ok value) :
    ∃ found, graph.fetch lookup options others origin idx = .ok found := by
  unfold fetch at fetched ⊢
  split at fetched
  · exact ⟨value, fetched⟩
  · exact ⟨value, fetched⟩
  · exact ⟨others idx, rfl⟩

/-- A leaf that can be read meets its rule. -/
theorem consistent_of_fetch {values : NodeIdx → A} {origin idx : NodeIdx} {node : Node K}
    (held : graph.get? idx = some node) (isLeaf : node.kind.operator? = none) {value : A}
    (fetched : graph.fetch assignment.get? options values origin idx = .ok value) :
    graph.Consistent assignment options (graph.completed assignment.get? values) idx := by
  refine ⟨node, held, ?_⟩
  rw [← eq_completed_of_fetch fetched]
  unfold fetch at fetched
  rw [kind?_eq held] at fetched
  cases kind : node.kind with
  | leaf id =>
      simp only [kind] at fetched
      simp only [evalNode]
      cases bound : assignment.get? id with
      | none =>
          rw [bound] at fetched
          cases fetched
      | some known =>
          rw [bound] at fetched
          have passed := Fault.report_eq_ok_iff.mp fetched
          exact Fault.report_eq_ok_iff.mpr
            (EvalOptions.check_eq_ok_of_check_eq_ok passed idx "variable")
  | constant known =>
      simp only [kind] at fetched
      exact fetched
  | operator op children =>
      rw [kind] at isLeaf
      cases isLeaf

/-- A node that meets its rule can be read, whoever reads it. -/
theorem fetch_eq_ok_of_consistent {values others : NodeIdx → A} {idx : NodeIdx}
    (consistent : graph.Consistent assignment options values idx) (origin : NodeIdx)
    (same : ∀ op children, graph.kind? idx = some (.operator op children) →
      others idx = values idx) :
    graph.fetch assignment.get? options others origin idx = .ok (values idx) := by
  obtain ⟨node, held, meets⟩ := consistent
  have known := kind?_eq held
  unfold fetch
  rw [known]
  cases kind : node.kind with
  | leaf id =>
      rw [kind] at meets
      simp only [evalNode] at meets ⊢
      cases bound : assignment.get? id with
      | none =>
          rw [bound] at meets
          cases meets
      | some value =>
          rw [bound] at meets
          have passed := Fault.report_eq_ok_iff.mp meets
          exact Fault.report_eq_ok_iff.mpr
            (EvalOptions.check_eq_ok_of_check_eq_ok passed origin "variable")
  | constant value =>
      rw [kind] at meets
      exact meets
  | operator op children =>
      simp only [same op children (known.trans (congrArg some kind))]

/-- Reading yields a value or reports an error. -/
theorem yields_fetch (values : NodeIdx → A) (origin idx : NodeIdx) :
    Outcome.Yields (graph.fetch lookup options values origin idx) (fun _ => True)
      Fault.IsReported := by
  unfold fetch
  split
  · split
    · exact (Fault.yields_report _).mono fun _ _ => trivial
    · exact ⟨_, rfl⟩
  · exact (Fault.yields_report _).mono fun _ _ => trivial
  · trivial

/-- What completes an index depends on the value there only. -/
theorem completed_congr {values others : NodeIdx → A} {idx : NodeIdx}
    (same : others idx = values idx) :
    graph.completed lookup others idx = graph.completed lookup values idx := by
  unfold completed
  split
  · rfl
  · rfl
  · exact same

/-- What deferred evaluation knows when it has visited a part of its order: the
operators among the visited nodes meet their rules, and what they read could be
read. -/
structure DeferredVisited (graph : Graph K) (assignment : Assignment A) (options : EvalOptions)
    (before : List NodeIdx) (values : NodeIdx → A) : Prop where
  /-- The visited operators meet their rules. -/
  consistent : ∀ idx ∈ before, ∀ op children, graph.kind? idx = some (.operator op children) →
    graph.Consistent assignment options (graph.completed assignment.get? values) idx
  /-- The children of the visited operators could be read. -/
  fetched : ∀ idx ∈ before, ∀ op children, graph.kind? idx = some (.operator op children) →
    ∀ child ∈ children, ∃ value,
      graph.fetch assignment.get? options values idx child = .ok value

/-- The value of an operator meets the rule of its node, or an error is
reported. -/
theorem yields_operatorValue (wellFormed : graph.WellFormed) {idx : NodeIdx} {node : Node K}
    (held : graph.get? idx = some node) {op : Operator K} {children : List NodeIdx}
    (kind : node.kind = .operator op children) (values : NodeIdx → A) :
    Outcome.Yields (graph.operatorValue assignment.get? options values op children idx)
      (fun value =>
        evalNode node.kind idx (children.map (graph.completed assignment.get? values)) assignment
            options = .ok value ∧
          ∀ child ∈ children, ∃ read,
            graph.fetch assignment.get? options values idx child = .ok read)
      Fault.IsReported := by
  have formed := wellFormed.arity held
  rw [kind] at formed ⊢
  have arguments : Outcome.Yields
      (children.mapM (graph.fetch assignment.get? options values idx))
      (fun args => args = children.map (graph.completed assignment.get? values) ∧
        ∀ child ∈ children, ∃ read,
          graph.fetch assignment.get? options values idx child = .ok read)
      Fault.IsReported :=
    Outcome.yields_mapM (fun child _ => yields_fetch values idx child) fun args traversed =>
      ⟨Outcome.eq_map_of_mapM_eq_ok (fun child _ value => eq_completed_of_fetch) traversed,
        fun child member => Outcome.ok_of_mapM_eq_ok traversed member⟩
  refine arguments.bind fun args _ ⟨same, read⟩ => ?_
  subst same
  obtain ⟨result, applied⟩ := Operator.exists_apply_eq_ok formed
    (List.length_map (graph.completed assignment.get? values))
  rw [applied]
  refine (Fault.yields_report _).mono fun value passed => ⟨?_, read⟩
  simp only [evalNode, applied]
  exact Fault.report_eq_ok_iff.mpr passed

/-- The visit of an operator computes and stores its value. -/
theorem deferredVisit_operator {values : NodeIdx → A} {idx : NodeIdx} {op : Operator K}
    {children : List NodeIdx} (known : graph.kind? idx = some (.operator op children)) :
    graph.deferredVisit lookup options values idx =
      graph.operatorValue lookup options values op children idx >>= fun value =>
        .ok (Function.update values idx value) := by
  unfold deferredVisit
  rw [known]

/-- The visit of a leaf changes nothing. -/
theorem deferredVisit_leaf {values : NodeIdx → A} {idx : NodeIdx}
    (known : ∀ op children, graph.kind? idx ≠ some (.operator op children)) :
    graph.deferredVisit lookup options values idx = .ok values := by
  unfold deferredVisit
  split
  · rename_i op children operator
    exact absurd operator (known op children)
  · rfl

/-- A value written at an index leaves what was known about smaller ones. -/
theorem DeferredVisited.update (wellFormed : graph.WellFormed) {before : List NodeIdx}
    {values : NodeIdx → A} (done : graph.DeferredVisited assignment options before values)
    {idx : NodeIdx} (below : ∀ query ∈ before, query < idx) (value : A) :
    graph.DeferredVisited assignment options before (Function.update values idx value) := by
  constructor
  · intro query member op children known
    refine (done.consistent query member op children known).congr wellFormed fun lower le => ?_
    exact completed_congr (Function.update_of_ne
      (Nat.ne_of_lt (Nat.lt_of_le_of_lt le (below query member))) value values)
  · intro query member op children known child read
    obtain ⟨found, fetched⟩ := done.fetched query member op children known child read
    exact fetch_ok_of_fetch_ok fetched

/-- One visit extends what deferred evaluation knows, or reports an error. -/
theorem DeferredVisited.visit (wellFormed : graph.WellFormed) {before : List NodeIdx}
    {idx : NodeIdx} {node : Node K} (held : graph.get? idx = some node) {values : NodeIdx → A}
    (done : graph.DeferredVisited assignment options before values)
    (below : ∀ query ∈ before, query < idx) :
    Outcome.Yields (graph.deferredVisit assignment.get? options values idx)
      (graph.DeferredVisited assignment options (before ++ [idx])) Fault.IsReported := by
  have known := kind?_eq held
  have leafVisit (isLeaf : ∀ op children, graph.kind? idx ≠ some (.operator op children)) :
      Outcome.Yields (graph.deferredVisit assignment.get? options values idx)
        (graph.DeferredVisited assignment options (before ++ [idx])) Fault.IsReported := by
    rw [deferredVisit_leaf isLeaf]
    have vacuous {claim : Operator K → List NodeIdx → Prop} : ∀ op children,
        graph.kind? idx = some (.operator op children) → claim op children :=
      fun op children operator => absurd operator (isLeaf op children)
    exact ⟨List.forall_mem_append.mpr ⟨done.consistent, List.forall_mem_singleton.mpr vacuous⟩,
      List.forall_mem_append.mpr ⟨done.fetched, List.forall_mem_singleton.mpr vacuous⟩⟩
  cases kind : node.kind with
  | leaf id =>
      rw [kind] at known
      exact leafVisit fun op children operator => by rw [known] at operator; cases operator
  | constant value =>
      rw [kind] at known
      exact leafVisit fun op children operator => by rw [known] at operator; cases operator
  | operator op children =>
      rw [kind] at known
      rw [deferredVisit_operator known]
      refine (yields_operatorValue wellFormed held kind values).bind
        fun value _ ⟨meets, read⟩ => ?_
      have kept := done.update wellFormed below value
      have lower : ∀ child ∈ children, child ≠ idx := fun child member =>
        Nat.ne_of_lt (wellFormed.child_lt held (by rwa [Node.children, kind]))
      have args : children.map (graph.completed assignment.get?
            (Function.update values idx value)) =
          children.map (graph.completed assignment.get? values) :=
        List.map_congr_left fun child member =>
          completed_congr (Function.update_of_ne (lower child member) value values)
      have here : graph.completed assignment.get? (Function.update values idx value) idx =
          value := by
        unfold completed
        rw [known]
        exact Function.update_self idx value values
      refine ⟨List.forall_mem_append.mpr ⟨kept.consistent, List.forall_mem_singleton.mpr ?_⟩,
        List.forall_mem_append.mpr ⟨kept.fetched, List.forall_mem_singleton.mpr ?_⟩⟩
      · intro otherOp others _
        refine ⟨node, held, ?_⟩
        rw [here, Node.children, kind, NodeKind.children, args, ← kind]
        exact meets
      · intro otherOp others operator child member
        rw [known] at operator
        cases operator
        obtain ⟨found, fetched⟩ := read child member
        exact fetch_ok_of_fetch_ok fetched

/-- When the operators below a root meet their rules and the root could be read,
the completed values are a valuation. -/
theorem DeferredVisited.valuation (wellFormed : graph.WellFormed) (inside : root < graph.size)
    {order : List NodeIdx} (valid : graph.EvaluationOrder root order) {values : NodeIdx → A}
    (done : graph.DeferredVisited assignment options order values) {value : A}
    (rootRead : graph.fetch assignment.get? options values root root = .ok value) :
    graph.Valuation root assignment options (graph.completed assignment.get? values) := by
  intro idx reaches
  obtain ⟨node, held⟩ := reaches.exists_node wellFormed inside
  have known := kind?_eq held
  by_cases isLeaf : node.kind.operator? = none
  · rcases reaches.eq_or_parent with rfl | ⟨parent, above, parentNode, parentHeld, member⟩
    · exact consistent_of_fetch held isLeaf rootRead
    · -- only operators have children, and the parent has read this one
      cases kind : parentNode.kind with
      | leaf id => simp [Node.children, NodeKind.children, kind] at member
      | constant value => simp [Node.children, NodeKind.children, kind] at member
      | operator op children =>
          have parentKnown := (kind?_eq parentHeld).trans (congrArg some kind)
          rw [Node.children, kind] at member
          obtain ⟨found, fetched⟩ := done.fetched parent ((valid.mem_iff parent).mpr above) op
            children parentKnown idx member
          exact consistent_of_fetch held isLeaf fetched
  · cases kind : node.kind with
    | leaf id => exact absurd (by rw [kind]; rfl) isLeaf
    | constant value => exact absurd (by rw [kind]; rfl) isLeaf
    | operator op children =>
        exact done.consistent idx ((valid.mem_iff idx).mpr reaches) op children
          (known.trans (congrArg some kind))

/-- Deferred evaluation yields the value of the root in a valuation, or it
reports an error. It breaks no contract. -/
theorem yields_evalDeferred (wellFormed : graph.WellFormed) (inside : root < graph.size)
    (assignment : Assignment A) (options : EvalOptions) :
    Outcome.Yields (graph.evalDeferred root assignment.get? options)
      (fun value => ∃ values, graph.Valuation root assignment options values ∧
        values root = value) Fault.IsReported := by
  obtain ⟨order, found, valid⟩ := subtree_spec wellFormed inside
  unfold evalDeferred evalDeferredFrom
  rw [found]
  change Outcome.Yields (order.foldlM (graph.deferredVisit assignment.get? options) _ >>= _) _ _
  have initially : graph.DeferredVisited assignment options [] fun _ => 0 := ⟨nofun, nofun⟩
  refine (Outcome.yields_foldlM initially
    fun before idx after values split done => ?_).bind fun values _ done => ?_
  · obtain ⟨node, held⟩ := (valid.reaches split).exists_node wellFormed inside
    exact done.visit wellFormed held fun query => valid.before_lt split
  · cases rootRead : graph.fetch assignment.get? options values root root with
    | ok value =>
        exact ⟨_, done.valuation wellFormed inside valid rootRead,
          (eq_completed_of_fetch rootRead).symm⟩
    | error fault =>
        have reported : Outcome.Yields
            (graph.fetch assignment.get? options values root root) (fun _ => True)
            Fault.IsReported := yields_fetch values root root
        rwa [rootRead] at reported

/-- Deferred evaluation finds the value that a valuation gives to the root. -/
theorem evalDeferred_eq_ok_of_valuation (wellFormed : graph.WellFormed)
    (inside : root < graph.size) {values : NodeIdx → A}
    (valuation : graph.Valuation root assignment options values) :
    graph.evalDeferred root assignment.get? options = .ok (values root) := by
  obtain ⟨order, found, valid⟩ := subtree_spec wellFormed inside
  let agrees (before : List NodeIdx) (known : NodeIdx → A) : Prop :=
    ∀ idx ∈ before, ∀ op children, graph.kind? idx = some (.operator op children) →
      known idx = values idx
  have step : ∀ before idx after known, order = before ++ idx :: after → agrees before known →
      ∃ next, graph.deferredVisit assignment.get? options known idx = .ok next ∧
        agrees (before ++ [idx]) next := by
    intro before idx after known split agreed
    have reaches := valid.reaches split
    obtain ⟨node, held, meets⟩ := valuation idx reaches
    by_cases operator : ∃ op children, graph.kind? idx = some (.operator op children)
    · obtain ⟨op, children, operator⟩ := operator
      have kind : node.kind = .operator op children :=
        Option.some.inj ((kind?_eq held).symm.trans operator)
      have reads : children.mapM (graph.fetch assignment.get? options known idx) =
          .ok (children.map values) :=
        Outcome.mapM_eq_ok_map fun child member => by
          have childMember : child ∈ node.children := by rwa [Node.children, kind]
          exact fetch_eq_ok_of_consistent
            (valuation child (reaches.tail ⟨node, held, childMember⟩)) idx
            (agreed child (valid.child_mem_before wellFormed split held childMember))
      have computed : graph.operatorValue assignment.get? options known op children idx =
          .ok (values idx) := by
        rw [← meets, Node.children, kind]
        unfold operatorValue
        rw [reads]
        rfl
      refine ⟨_, by rw [deferredVisit_operator operator, computed]; rfl,
        List.forall_mem_append.mpr ⟨?_, List.forall_mem_singleton.mpr ?_⟩⟩
      · intro query member otherOp others otherKind
        rw [Function.update_of_ne (Nat.ne_of_lt (valid.before_lt split member))]
        exact agreed query member otherOp others otherKind
      · intro _ _ _
        exact Function.update_self idx (values idx) known
    · refine ⟨known, deferredVisit_leaf fun op children kind => operator ⟨op, children, kind⟩,
        List.forall_mem_append.mpr ⟨agreed, List.forall_mem_singleton.mpr ?_⟩⟩
      intro otherOp others otherKind
      exact absurd ⟨otherOp, others, otherKind⟩ operator
  obtain ⟨final, traversed, agreed⟩ :
      ∃ final, order.foldlM (graph.deferredVisit assignment.get? options) (fun _ => 0) =
        .ok final ∧ agrees order final :=
    Outcome.exists_foldlM_eq_ok (fun _ member => absurd member List.not_mem_nil) step
  unfold evalDeferred evalDeferredFrom
  rw [found]
  change (order.foldlM (graph.deferredVisit assignment.get? options) _ >>= _) = _
  rw [traversed, Outcome.ok_bind]
  exact fetch_eq_ok_of_consistent (valuation root Relation.ReflTransGen.refl) root
    (agreed root valid.root_mem)

/-- Looking at leaves when they are read finds the same values as visiting
them. -/
theorem evalDeferred_eq_ok_iff (wellFormed : graph.WellFormed) (inside : root < graph.size)
    {value : A} : graph.evalDeferred root assignment.get? options = .ok value ↔
      graph.eval root assignment options = .ok value := by
  rw [eval_eq_ok_iff wellFormed inside]
  constructor
  · intro found
    have yields := yields_evalDeferred wellFormed inside assignment options
    rwa [found] at yields
  · rintro ⟨values, valuation, rfl⟩
    exact evalDeferred_eq_ok_of_valuation wellFormed inside valuation

end Graph

end MixedInteger
