import MixedInteger.Expression.Evaluation
import MixedInteger.Proofs.Expression.Reachability

/-! # Valuations

A valuation gives every node below a root a value that meets the node's
evaluation rule. Evaluation finds a value of the root exactly when there is a
valuation, and the value is that of the root in the valuation
(`Graph.eval_eq_ok_iff`). Any other way of computing a root is compared with
evaluation by showing that it finds a valuation too.
-/

namespace MixedInteger

variable {K A : Type} [Numeric K A]

namespace Operator

/-- An operator has a value on the values of the children of a created node. -/
theorem exists_apply_eq_ok {operator : Operator K} {children : List NodeIdx}
    (formed : (NodeKind.operator operator children).checkArity = .ok ()) {args : List A}
    (count : args.length = children.length) : ∃ value, operator.apply args = .ok value := by
  cases applied : operator.apply args with
  | ok value => exact ⟨value, rfl⟩
  | error broken =>
      have refused := ((apply_eq_error_iff operator args broken).mp applied).1
      rw [count] at refused
      simp only [NodeKind.checkArity, refused, Bool.false_eq_true, ↓reduceIte] at formed
      cases formed

end Operator

namespace EvalOptions

/-- A check passes a value on as it is. -/
theorem eq_of_check_eq_ok {options : EvalOptions} {node : NodeIdx} {operator : String}
    {value found : A} (passed : options.check node operator value = .ok found) : found = value := by
  unfold check at passed
  split at passed
  · cases passed
  · cases passed
    rfl

/-- Whether a value passes a check depends neither on the node nor on the
operator that an error would name. -/
theorem check_eq_ok_of_check_eq_ok {options : EvalOptions} {node : NodeIdx} {operator : String}
    {value found : A} (passed : options.check node operator value = .ok found)
    (otherNode : NodeIdx) (otherOperator : String) :
    options.check otherNode otherOperator value = .ok found := by
  unfold check at passed ⊢
  split at passed
  · cases passed
  · rename_i passes
    rw [if_neg passes]
    exact passed

end EvalOptions

namespace Graph

variable {graph : Graph K} {root : NodeIdx} {assignment : Assignment A} {options : EvalOptions}

/-- Whether values meet the evaluation rule of the node at an index. -/
def Consistent (graph : Graph K) (assignment : Assignment A) (options : EvalOptions)
    (values : NodeIdx → A) (idx : NodeIdx) : Prop :=
  ∃ node, graph.get? idx = some node ∧
    evalNode node.kind idx (node.children.map values) assignment options = .ok (values idx)

/-- Whether values meet the evaluation rule of every node below a root. -/
def Valuation (graph : Graph K) (root : NodeIdx) (assignment : Assignment A)
    (options : EvalOptions) (values : NodeIdx → A) : Prop :=
  ∀ idx, graph.Reaches root idx → graph.Consistent assignment options values idx

/-- A node's rule concerns the values up to the node only. -/
theorem Consistent.congr (wellFormed : graph.WellFormed) {values others : NodeIdx → A}
    {idx : NodeIdx} (consistent : graph.Consistent assignment options values idx)
    (same : ∀ query, query ≤ idx → others query = values query) :
    graph.Consistent assignment options others idx := by
  obtain ⟨node, held, meets⟩ := consistent
  have args : node.children.map others = node.children.map values :=
    List.map_congr_left fun child member =>
      same child (Nat.le_of_lt (wellFormed.child_lt held member))
  exact ⟨node, held, by rw [args, same idx (Nat.le_refl _)]; exact meets⟩

/-- The evaluation rule of a node yields a value or reports an error. -/
theorem yields_evalNode {node : Node K} {idx : NodeIdx} {args : List A}
    (formed : node.kind.checkArity = .ok ()) (count : args.length = node.children.length) :
    Outcome.Yields (evalNode node.kind idx args assignment options) (fun _ => True)
      Fault.IsReported := by
  unfold Node.children at count
  cases kind : node.kind with
  | leaf id =>
      simp only [evalNode]
      cases assignment.get? id with
      | none => exact ⟨_, rfl⟩
      | some value => exact (Fault.yields_report _).mono fun _ _ => trivial
  | constant value => exact (Fault.yields_report _).mono fun _ _ => trivial
  | operator op children =>
      rw [kind] at formed count
      obtain ⟨result, applied⟩ := Operator.exists_apply_eq_ok formed count
      simp only [evalNode, applied]
      exact (Fault.yields_report _).mono fun _ _ => trivial

/-- With the children visited, a visit evaluates the node and stores the value. -/
theorem evalVisit_eq {memo : Array (Option A)} {idx : NodeIdx} {node : Node K} {args : List A}
    (held : graph.get? idx = some node) (known : node.children.mapM (visited memo) = .ok args) :
    graph.evalVisit assignment options memo idx =
      evalNode node.kind idx args assignment options >>= fun value =>
        .ok (memo.setIfInBounds idx (some value)) := by
  unfold evalVisit
  rw [node_eq_ok_iff.mpr held]
  change (Fault.contract (node.children.mapM (visited memo)) >>= _) = _
  rw [known]
  rfl

/-- The value a table of visited nodes gives to an index. -/
def tableValue (memo : Array (Option A)) (idx : NodeIdx) : A := memo[idx]?.join.getD 0

/-- What evaluation knows when it has visited a part of its order: every visited
node has a value, and the values meet the rules of the visited nodes. -/
structure Visited (graph : Graph K) (root : NodeIdx) (assignment : Assignment A)
    (options : EvalOptions) (before : List NodeIdx) (memo : Array (Option A)) : Prop where
  size : memo.size = root + 1
  known : ∀ idx ∈ before, memo[idx]?.join = some (tableValue memo idx)
  /-- The values meet the rules of the visited nodes. -/
  consistent : ∀ idx ∈ before, graph.Consistent assignment options (tableValue memo) idx

/-- A stored value is found at its index, and the others where they were. -/
theorem tableValue_setIfInBounds {memo : Array (Option A)} {idx : NodeIdx}
    (inside : idx < memo.size) (value : A) (query : NodeIdx) :
    tableValue (memo.setIfInBounds idx (some value)) query =
      if query = idx then value else tableValue memo query := by
  unfold tableValue
  by_cases same : query = idx
  · subst same
    simp [inside]
  · simp [Array.getElem?_setIfInBounds_ne (Ne.symm same), same]

/-- Visited children can be looked up. -/
theorem Visited.mapM_visited {before : List NodeIdx} {memo : Array (Option A)}
    (done : graph.Visited root assignment options before memo) {children : List NodeIdx}
    (earlier : ∀ child ∈ children, child ∈ before) :
    children.mapM (visited memo) = .ok (children.map (tableValue memo)) := by
  refine Outcome.mapM_eq_ok_map fun child member => ?_
  unfold visited
  rw [done.known child (earlier child member)]

/-- One visit extends what evaluation knows, or reports an error. -/
theorem Visited.evalVisit (wellFormed : graph.WellFormed) {order before after : List NodeIdx}
    {idx : NodeIdx} (inside : root < graph.size) (valid : graph.EvaluationOrder root order)
    (split : order = before ++ idx :: after) {memo : Array (Option A)}
    (done : graph.Visited root assignment options before memo) :
    Outcome.Yields (graph.evalVisit assignment options memo idx)
      (graph.Visited root assignment options (before ++ [idx])) Fault.IsReported := by
  have reaches := valid.reaches split
  obtain ⟨node, held⟩ := reaches.exists_node wellFormed inside
  have earlier : ∀ child ∈ node.children, child ∈ before := fun child member =>
    valid.child_mem_before wellFormed split held member
  have bound : idx < memo.size := done.size ▸ Nat.lt_succ_of_le (reaches.le wellFormed)
  rw [evalVisit_eq held (done.mapM_visited earlier)]
  refine (yields_evalNode (wellFormed.arity held) (List.length_map _)).bind fun value found _ => ?_
  have values := tableValue_setIfInBounds bound value
  have older : ∀ query ∈ before, query ≠ idx := fun query member same =>
    valid.not_mem_before split (same ▸ member)
  refine ⟨Array.size_setIfInBounds.trans done.size,
    List.forall_mem_append.mpr ⟨fun query member => ?_, List.forall_mem_singleton.mpr ?_⟩,
    List.forall_mem_append.mpr ⟨fun query member => ?_, List.forall_mem_singleton.mpr ?_⟩⟩
  · have other := older query member
    rw [values, Array.getElem?_setIfInBounds_ne (Ne.symm other), done.known query member,
      if_neg other]
  · rw [values]
    simp [bound]
  · refine (done.consistent query member).congr wellFormed fun lower le => ?_
    have below := valid.before_lt split member
    rw [values, if_neg (Nat.ne_of_lt (Nat.lt_of_le_of_lt le below))]
  · have args : node.children.map (tableValue (memo.setIfInBounds idx (some value))) =
        node.children.map (tableValue memo) :=
      List.map_congr_left fun child member => by
        rw [values, if_neg (older child (earlier child member))]
    exact ⟨node, held, by rw [args, values, if_pos rfl]; exact found⟩

/-- Evaluation yields the value of the root in a valuation, or it reports an
error. It breaks no contract. -/
theorem yields_eval (wellFormed : graph.WellFormed) (inside : root < graph.size)
    (assignment : Assignment A) (options : EvalOptions) :
    Outcome.Yields (graph.eval root assignment options)
      (fun value => ∃ values, graph.Valuation root assignment options values ∧
        values root = value) Fault.IsReported := by
  obtain ⟨order, found, valid⟩ := subtree_spec wellFormed inside
  unfold eval
  rw [found]
  change Outcome.Yields (order.foldlM (graph.evalVisit assignment options) _ >>= _) _ _
  have initially : graph.Visited root assignment options [] (Array.replicate (root + 1) none) :=
    ⟨Array.size_replicate, nofun, nofun⟩
  refine (Outcome.yields_foldlM initially fun before idx after memo split done =>
    done.evalVisit wellFormed inside valid split).bind fun memo _ done => ?_
  rw [done.known root valid.root_mem]
  exact ⟨tableValue memo, fun idx reaches => done.consistent idx ((valid.mem_iff idx).mpr reaches),
    rfl⟩

/-- A traversal of the first part of an order gives every node there its value, when each
visit finds the value of its node from those of the children. -/
theorem EvaluationOrder.exists_table_before {ε B : Type} {order before after : List NodeIdx}
    (valid : graph.EvaluationOrder root order) (wellFormed : graph.WellFormed)
    (inside : root < graph.size) (split : order = before ++ after) (values : NodeIdx → B)
    (visit : Array (Option B) → NodeIdx → Except ε (Array (Option B)))
    (visits : ∀ idx ∈ before, ∀ node memo, graph.get? idx = some node →
      node.children.mapM (visited memo) = .ok (node.children.map values) →
        visit memo idx = .ok (memo.setIfInBounds idx (some (values idx)))) :
    ∃ memo, before.foldlM visit (Array.replicate (root + 1) none) = .ok memo ∧
      ∀ idx ∈ before, memo[idx]?.join = some (values idx) := by
  let agrees (first : List NodeIdx) (memo : Array (Option B)) : Prop :=
    memo.size = root + 1 ∧ ∀ idx ∈ first, memo[idx]?.join = some (values idx)
  have initially : agrees [] (Array.replicate (root + 1) none) := ⟨Array.size_replicate, nofun⟩
  have step : ∀ first idx rest memo, before = first ++ idx :: rest → agrees first memo →
      ∃ next, visit memo idx = .ok next ∧ agrees (first ++ [idx]) next := by
    intro first idx rest memo here ⟨size, known⟩
    have whole : order = first ++ idx :: (rest ++ after) := by
      rw [split, here, List.append_assoc, List.cons_append]
    have reaches := valid.reaches whole
    obtain ⟨node, held⟩ := reaches.exists_node wellFormed inside
    have bound : idx < memo.size := size ▸ Nat.lt_succ_of_le (reaches.le wellFormed)
    have args : node.children.mapM (visited memo) = .ok (node.children.map values) :=
      Outcome.mapM_eq_ok_map fun child member => by
        unfold visited
        rw [known child (valid.child_mem_before wellFormed whole held member)]
    refine ⟨_, visits idx (by simp [here]) node memo held args,
      Array.size_setIfInBounds.trans size,
      List.forall_mem_append.mpr ⟨fun query member => ?_, List.forall_mem_singleton.mpr ?_⟩⟩
    · have other : query ≠ idx := fun same => valid.not_mem_before whole (same ▸ member)
      rw [Array.getElem?_setIfInBounds_ne (Ne.symm other), known query member]
    · simp [bound]
  obtain ⟨memo, traversed, -, known⟩ := Outcome.exists_foldlM_eq_ok initially step
  exact ⟨memo, traversed, known⟩

/-- A traversal of the whole order finds the value of the root. -/
theorem EvaluationOrder.exists_table {ε B : Type} {order : List NodeIdx}
    (valid : graph.EvaluationOrder root order) (wellFormed : graph.WellFormed)
    (inside : root < graph.size) (values : NodeIdx → B)
    (visit : Array (Option B) → NodeIdx → Except ε (Array (Option B)))
    (visits : ∀ idx node memo, graph.Reaches root idx → graph.get? idx = some node →
      node.children.mapM (visited memo) = .ok (node.children.map values) →
        visit memo idx = .ok (memo.setIfInBounds idx (some (values idx)))) :
    ∃ memo, order.foldlM visit (Array.replicate (root + 1) none) = .ok memo ∧
      memo[root]?.join = some (values root) := by
  obtain ⟨memo, traversed, known⟩ :=
    valid.exists_table_before wellFormed inside (List.append_nil order).symm values visit
      fun idx member node memo => visits idx node memo ((valid.mem_iff idx).mp member)
  exact ⟨memo, traversed, known root valid.root_mem⟩

/-- Evaluation finds the value that a valuation gives to the root. -/
theorem eval_eq_ok_of_valuation (wellFormed : graph.WellFormed) (inside : root < graph.size)
    {values : NodeIdx → A} (valuation : graph.Valuation root assignment options values) :
    graph.eval root assignment options = .ok (values root) := by
  obtain ⟨order, found, valid⟩ := subtree_spec wellFormed inside
  obtain ⟨memo, traversed, known⟩ := valid.exists_table wellFormed inside values
    (graph.evalVisit assignment options) fun idx node memo reaches held args => by
      obtain ⟨same, present, meets⟩ := valuation idx reaches
      obtain rfl : node = same := Option.some.inj (held.symm.trans present)
      rw [evalVisit_eq held args, meets]
      rfl
  unfold eval
  rw [found]
  change (order.foldlM (graph.evalVisit assignment options) _ >>= _) = _
  rw [traversed, Outcome.ok_bind, known]
  rfl

/-- Only a root of the graph has a value. -/
theorem lt_size_of_eval_eq_ok {value : A}
    (evaluated : graph.eval root assignment options = .ok value) : root < graph.size := by
  obtain ⟨order, searched, -⟩ := Outcome.bind_eq_ok_iff.mp evaluated
  obtain ⟨node, held, -⟩ := Outcome.bind_eq_ok_iff.mp (Fault.contract_eq_ok_iff.mp searched)
  exact lt_size_of_get?_eq_some (node_eq_ok_iff.mp held)

/-- Evaluation finds a value exactly when there is a valuation. -/
theorem eval_eq_ok_iff (wellFormed : graph.WellFormed) (inside : root < graph.size) {value : A} :
    graph.eval root assignment options = .ok value ↔
      ∃ values, graph.Valuation root assignment options values ∧ values root = value := by
  constructor
  · intro found
    have yields := yields_eval wellFormed inside assignment options
    rwa [found] at yields
  · rintro ⟨values, valuation, rfl⟩
    exact eval_eq_ok_of_valuation wellFormed inside valuation

/-- A rule that holds of checked values holds of them unchecked. -/
theorem Consistent.unchecked {values : NodeIdx → A} {idx : NodeIdx}
    (consistent : graph.Consistent assignment options values idx) :
    graph.Consistent assignment { checkFinite := false } values idx := by
  obtain ⟨node, held, meets⟩ := consistent
  refine ⟨node, held, ?_⟩
  have passes {operator : String} {value : A}
      (passed : Fault.report (options.check idx operator value) = .ok (values idx)) :
      Fault.report (EvalOptions.check { checkFinite := false } idx operator value) =
        .ok (values idx) := by
    rw [EvalOptions.eq_of_check_eq_ok (Fault.report_eq_ok_iff.mp passed)]
    rfl
  cases kind : node.kind with
  | leaf id =>
      rw [kind] at meets
      simp only [evalNode] at meets ⊢
      cases bound : assignment.get? id with
      | none =>
          rw [bound] at meets
          cases meets
      | some value =>
          rw [bound] at meets
          exact passes meets
  | constant value =>
      rw [kind] at meets
      exact passes meets
  | operator op children =>
      rw [kind] at meets
      obtain ⟨result, applied, checked⟩ := Outcome.bind_eq_ok_iff.mp meets
      exact Outcome.bind_eq_ok_iff.mpr ⟨result, applied, passes checked⟩

/-- What a checked evaluation finds, an unchecked one finds as well. -/
theorem eval_unchecked_of_eval_eq_ok (wellFormed : graph.WellFormed) (inside : root < graph.size)
    {value : A} (found : graph.eval root assignment options = .ok value) :
    graph.eval root assignment { checkFinite := false } = .ok value := by
  obtain ⟨values, valuation, same⟩ := (eval_eq_ok_iff wellFormed inside).mp found
  exact (eval_eq_ok_iff wellFormed inside).mpr
    ⟨values, fun idx reaches => (valuation idx reaches).unchecked, same⟩

end Graph

end MixedInteger
