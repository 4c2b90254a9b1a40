import MixedInteger.Proofs.Expression.Compilation
import MixedInteger.Proofs.Expression.Representation
import MixedInteger.Proofs.Expression.UnfoldedDegree

/-! # Locality

What is computed from a root depends on the nodes below it and on the values of the
variables there. A graph that grows goes on holding a node of the same kind at every index
(`Graph.GrowsTo`), and each traversal reads nothing but these kinds, so the subtree of a root,
its degree, its tape and its value outlast all later requests. Assignments that differ
elsewhere cannot be told apart (`Graph.session_local`).
-/

namespace MixedInteger

namespace Graph

variable {K A : Type}

/-- Whether another graph holds a node of the same kind at every index of a graph. -/
def GrowsTo (graph grown : Graph K) : Prop :=
  ∀ idx, idx < graph.size → grown.kind? idx = graph.kind? idx

variable {graph grown later : Graph K} {root idx : NodeIdx}

theorem growsTo_refl (graph : Graph K) : graph.GrowsTo graph := fun _ _ => rfl

/-- A node that was there stands for the same in what the graph has grown to. -/
theorem GrowsTo.exists_node (grows : graph.GrowsTo grown) {node : Node K}
    (held : graph.get? idx = some node) :
    ∃ other, grown.get? idx = some other ∧ other.kind = node.kind :=
  Option.map_eq_some_iff.mp <|
    (grows idx (lt_size_of_get?_eq_some held)).trans (kind?_eq held)

/-- A graph may grow in steps. -/
theorem GrowsTo.trans (first : graph.GrowsTo grown) (second : grown.GrowsTo later) :
    graph.GrowsTo later := by
  intro idx inside
  obtain ⟨node, held⟩ := get?_eq_some_of_lt inside
  obtain ⟨other, otherHeld, -⟩ := first.exists_node held
  exact (second idx (lt_size_of_get?_eq_some otherHeld)).trans (first idx inside)

/-- No request takes back what a node stands for. -/
theorem growsTo_session (graph : Graph K) (requests : List (Request K)) :
    graph.GrowsTo (graph.session requests) := by
  induction requests generalizing graph with
  | nil => exact growsTo_refl graph
  | cons request requests ih =>
      have step : graph.GrowsTo (request.perform graph) :=
        fun idx inside => (step_perform graph request).kind?_of_lt inside
      exact step.trans (ih (request.perform graph))

/-! ## The subtree -/

/-- One step of the search, at an index that the graph holds. -/
theorem explore_of_waiting {search : Search} {waiting : List NodeIdx}
    (waits : search.waiting = idx :: waiting) {node : Node K} (held : graph.get? idx = some node) :
    graph.explore search =
      node.children.foldlM Search.meet ⟨search.met, waiting⟩ >>= graph.explore := by
  have found := node_eq_ok_iff.mpr held
  rw [explore]
  split
  · rename_i finished
    cases finished.symm.trans waits
  · rename_i first rest same
    cases same.symm.trans waits
    split
    · rename_i absent
      cases absent.symm.trans found
    · rename_i other otherHeld
      cases otherHeld.symm.trans found
      split
      · rename_i failed
        exact (congrArg (· >>= graph.explore) failed).symm
      · rename_i met
        exact (congrArg (· >>= graph.explore) met).symm

section Grown

variable (grows : graph.GrowsTo grown) (wellFormed : graph.WellFormed)
  (inside : root < graph.size)

include grows wellFormed inside

/-- The search below a root meets the same indices in the same order. -/
theorem GrowsTo.explore_eq (search : Search) (below : search.Below graph root) :
    grown.explore search = graph.explore search := by
  fun_induction explore graph search with
  | case1 search finished =>
      rw [explore]
      split
      · rfl
      · rename_i waits
        cases finished.symm.trans waits
  | case2 search idx waiting waits broken absent =>
      have reached := below.reaches idx (below.waiting_met idx (by simp [waits]))
      obtain ⟨node, held⟩ := reached.exists_node wellFormed inside
      rw [node_eq_ok_iff.mpr held] at absent
      cases absent
  | case3 search idx waiting waits node held broken failed =>
      obtain ⟨next, met, -⟩ := below.explore wellFormed waits (node_eq_ok_iff.mp held)
      rw [met] at failed
      cases failed
  | case4 search idx waiting waits node held next met _ ih =>
      have held := node_eq_ok_iff.mp held
      obtain ⟨other, otherHeld, kind⟩ := grows.exists_node held
      obtain ⟨same, metSame, kept⟩ := below.explore wellFormed waits held
      cases metSame.symm.trans met
      rw [explore_of_waiting waits otherHeld, Node.children, kind]
      change node.children.foldlM Search.meet _ >>= _ = _
      rw [met]
      exact ih kept

/-- A graph that grows keeps the subtree of every root. -/
theorem GrowsTo.subtree_eq : grown.subtree root = graph.subtree root := by
  obtain ⟨node, held⟩ := get?_eq_some_of_lt inside
  obtain ⟨other, otherHeld, -⟩ := grows.exists_node held
  unfold subtree
  rw [node_eq_ok_iff.mpr held, node_eq_ok_iff.mpr otherHeld,
    grows.explore_eq wellFormed inside _ (Search.below_start graph root)]
  rfl

end Grown

/-- An index of a graph is held there and in every graph that it grows to. -/
theorem GrowsTo.node_cases (grows : graph.GrowsTo grown) (inside : idx < graph.size) :
    ∃ node other, graph.node idx = .ok node ∧ grown.node idx = .ok other ∧
      graph.kind? idx = some node.kind ∧ other.kind = node.kind := by
  obtain ⟨node, held⟩ := get?_eq_some_of_lt inside
  obtain ⟨other, otherHeld, kind⟩ := grows.exists_node held
  exact ⟨node, other, node_eq_ok_iff.mpr held, node_eq_ok_iff.mpr otherHeld, kind?_eq held, kind⟩

/-! ## Evaluation -/

section Evaluation

variable [Numeric K A] {first second : Assignment A} {options : EvalOptions}

/-- The rule of a node looks at no variable but the node's own. -/
theorem evalNode_congr {kind : NodeKind K}
    (agree : ∀ id, kind = .leaf id → first.get? id = second.get? id) (args : List A) :
    evalNode kind idx args first options = evalNode kind idx args second options := by
  cases kind with
  | leaf id => simp only [evalNode, agree id rfl]
  | constant | operator => rfl

/-- The visit of a node evaluates its rule on the values of its children. -/
theorem evalVisit_of_node {node : Node K} (held : graph.node idx = .ok node)
    (memo : Array (Option A)) :
    graph.evalVisit first options memo idx =
      Fault.contract (node.kind.children.mapM (visited memo)) >>= fun args =>
        evalNode node.kind idx args first options >>= fun value =>
          .ok (memo.setIfInBounds idx (some value)) := by
  unfold evalVisit
  rw [held]
  rfl

/-- The visit of a node depends on the node and on the values of its own variable only. -/
theorem GrowsTo.evalVisit_eq (grows : graph.GrowsTo grown) (inside : idx < graph.size)
    (agree : ∀ id, graph.kind? idx = some (.leaf id) → first.get? id = second.get? id)
    (memo : Array (Option A)) :
    grown.evalVisit first options memo idx = graph.evalVisit second options memo idx := by
  obtain ⟨node, other, held, otherHeld, known, kind⟩ := grows.node_cases inside
  rw [evalVisit_of_node held, evalVisit_of_node otherHeld, kind]
  refine bind_congr fun args => ?_
  rw [evalNode_congr fun id leaf => agree id (known.trans (congrArg some leaf))]

/-- Evaluation depends on the nodes below a root and on the variables that occur there. -/
theorem GrowsTo.eval_eq (grows : graph.GrowsTo grown) (wellFormed : graph.WellFormed)
    (inside : root < graph.size)
    (agree : ∀ id, graph.Occurs root id → first.get? id = second.get? id) :
    grown.eval root first options = graph.eval root second options := by
  obtain ⟨order, found, valid⟩ := subtree_spec wellFormed inside
  have visits : ∀ idx ∈ order, ∀ memo, grown.evalVisit first options memo idx =
      graph.evalVisit second options memo idx := by
    intro idx member memo
    have reaches := (valid.mem_iff idx).mp member
    exact grows.evalVisit_eq (Nat.lt_of_le_of_lt (reaches.le wellFormed) inside)
      (fun id leaf => agree id ⟨idx, reaches, leaf⟩) memo
  unfold eval
  rw [grows.subtree_eq wellFormed inside, found]
  change (order.foldlM (grown.evalVisit first options) _ >>= _) =
    (order.foldlM (graph.evalVisit second options) _ >>= _)
  rw [Outcome.foldlM_congr visits]

end Evaluation

/-! ## Degrees -/

/-- The exponent of a power is constant or not, whatever is added to the graph. -/
theorem GrowsTo.constantExponent_eq (grows : graph.GrowsTo grown) {children : List NodeIdx}
    (inside : ∀ child ∈ children, child < graph.size) :
    grown.constantExponent children = graph.constantExponent children := by
  unfold constantExponent
  cases exponent : children[1]? with
  | none => rfl
  | some child =>
      obtain ⟨node, held⟩ := get?_eq_some_of_lt (inside child (List.mem_of_getElem? exponent))
      obtain ⟨other, otherHeld, kind⟩ := grows.exists_node held
      simp only [Option.bind_some, held, otherHeld, kind]

section Degree

variable [Scalar K]

/-- The visit of a node finds its degree from those of its children. -/
theorem degreeVisit_of_node {node : Node K} (held : graph.node idx = .ok node)
    (memo : Array (Option Degree)) :
    graph.degreeVisit memo idx = node.kind.children.mapM (visited memo) >>= fun degrees =>
      graph.nodeDegree node.kind degrees >>= fun degree =>
        .ok (memo.setIfInBounds idx (some degree)) := by
  unfold degreeVisit
  rw [held]
  rfl

/-- The visit of a node for its degree depends on that node only. -/
theorem GrowsTo.degreeVisit_eq (grows : graph.GrowsTo grown) (wellFormed : graph.WellFormed)
    (inside : idx < graph.size) (memo : Array (Option Degree)) :
    grown.degreeVisit memo idx = graph.degreeVisit memo idx := by
  obtain ⟨node, other, held, otherHeld, -, kind⟩ := grows.node_cases inside
  have rule (degrees : List Degree) :
      grown.nodeDegree node.kind degrees = graph.nodeDegree node.kind degrees := by
    cases operator : node.kind with
    | leaf | constant => rfl
    | operator op children =>
        have exponent := grows.constantExponent_eq fun child (member : child ∈ children) => by
          refine Nat.lt_trans (wellFormed.child_lt (node_eq_ok_iff.mp held) ?_) inside
          rwa [Node.children, operator]
        rw [nodeDegree, nodeDegree, exponent]
  rw [degreeVisit_of_node held, degreeVisit_of_node otherHeld, kind]
  simp only [rule]

/-- A graph that grows keeps the degree of every root. -/
theorem GrowsTo.degree_eq (grows : graph.GrowsTo grown) (wellFormed : graph.WellFormed)
    (inside : root < graph.size) : grown.degree root = graph.degree root := by
  obtain ⟨order, found, valid⟩ := subtree_spec wellFormed inside
  have visits : ∀ idx ∈ order, ∀ memo, grown.degreeVisit memo idx = graph.degreeVisit memo idx :=
    fun idx member => grows.degreeVisit_eq wellFormed
      (Nat.lt_of_le_of_lt (((valid.mem_iff idx).mp member).le wellFormed) inside)
  unfold degree
  rw [grows.subtree_eq wellFormed inside, found, Outcome.ok_bind, Outcome.ok_bind,
    Outcome.foldlM_congr visits]

end Degree

/-! ## Tapes -/

/-- A graph that grows keeps the uses below a root. -/
theorem GrowsTo.countUses_eq (grows : graph.GrowsTo grown) {order : List NodeIdx}
    (inside : ∀ idx ∈ order, idx < graph.size) :
    grown.countUses root order = graph.countUses root order := by
  unfold countUses
  refine Outcome.foldlM_congr (fun idx member uses => ?_) _
  obtain ⟨node, other, held, otherHeld, -, kind⟩ := grows.node_cases (inside idx member)
  rw [held, otherHeld, Outcome.ok_bind, Outcome.ok_bind, Node.children, kind]
  rfl

/-- The layout of a node depends on that node only. -/
theorem GrowsTo.visit_eq (grows : graph.GrowsTo grown) (inside : idx < graph.size)
    (layout : Layout K) : layout.visit grown idx = layout.visit graph idx := by
  obtain ⟨node, other, held, otherHeld, -, kind⟩ := grows.node_cases inside
  unfold Layout.visit
  rw [held, otherHeld, Outcome.ok_bind, Outcome.ok_bind, kind]

/-- A graph that grows keeps the tape of every root. -/
theorem GrowsTo.compile_eq (grows : graph.GrowsTo grown) (wellFormed : graph.WellFormed)
    (inside : root < graph.size) (variableCount : Nat) :
    grown.compile root variableCount = graph.compile root variableCount := by
  obtain ⟨order, found, valid⟩ := subtree_spec wellFormed inside
  have below : ∀ idx ∈ order, idx < graph.size := fun idx member =>
    Nat.lt_of_le_of_lt (((valid.mem_iff idx).mp member).le wellFormed) inside
  have visits : ∀ idx ∈ order, ∀ layout : Layout K, layout.visit grown idx =
      layout.visit graph idx := fun idx member => grows.visit_eq (below idx member)
  unfold compile
  rw [grows.subtree_eq wellFormed inside, found, Outcome.ok_bind, Outcome.ok_bind,
    grows.countUses_eq below]
  refine bind_congr fun uses => ?_
  rw [Outcome.foldlM_congr visits]

/-- A tape looks at no variables but those that it names. -/
theorem tape_run_congr [Numeric K A] {tape : Tape K} {first second : VariableId → Option A}
    {options : EvalOptions}
    (args : ∀ instruction ∈ tape.instructions.toList, ∀ id, .leaf id ∈ instruction.args →
      first id = second id)
    (result : ∀ id, tape.root = .leaf id → first id = second id) :
    tape.run first options = tape.run second options := by
  have reads (slots : Array A) (origin : NodeIdx) (operand : Operand)
      (agree : ∀ id, operand = .leaf id → first id = second id) :
      tape.read first options slots origin operand =
        tape.read second options slots origin operand := by
    cases operand with
    | leaf id => simp only [Tape.read, agree id rfl]
    | constant index | slot index => rfl
  have steps : ∀ instruction ∈ tape.instructions.toList, ∀ slots,
      tape.step first options slots instruction = tape.step second options slots instruction := by
    intro instruction member slots
    unfold Tape.step
    rw [Outcome.mapM_congr fun operand isArg => reads slots instruction.origin operand
      fun id leaf => args instruction member id (leaf ▸ isArg)]
  unfold Tape.run
  rw [Outcome.foldlM_congr steps]
  exact bind_congr fun slots => reads slots tape.rootOrigin tape.root result

/-- **Evaluation is local and stable.** In a graph to which nodes are added and whose depth
hints are changed, whether or not the graph accepts the requests, a root that was there keeps
its subtree, its degree, its tape and its value under every assignment. Two assignments that
agree on the variables in the subtree give the same outcome, in the graph and on the tape, be
it a value or an error. -/
theorem session_local [Scalar K] [Numeric K A] (built : graph.Built) (inside : root < graph.size)
    (requests : List (Request K)) (variableCount : Nat) :
    ∃ order degree tape,
      (graph.subtree root = .ok order ∧ (graph.session requests).subtree root = .ok order) ∧
      (graph.degree root = .ok degree ∧ (graph.session requests).degree root = .ok degree) ∧
      (graph.compile root variableCount = .ok tape ∧
        (graph.session requests).compile root variableCount = .ok tape) ∧
      (∀ (assignment : Assignment A) (options : EvalOptions),
        (graph.session requests).eval root assignment options =
          graph.eval root assignment options) ∧
      ∀ first second : Assignment A,
        (∀ idx ∈ order, ∀ id, graph.kind? idx = some (.leaf id) →
          first.get? id = second.get? id) →
        ∀ options : EvalOptions,
          graph.eval root first options = graph.eval root second options ∧
            tape.eval first options = tape.eval second options := by
  have wellFormed := built.wellFormed
  have grows := growsTo_session graph requests
  obtain ⟨order, found, valid⟩ := subtree_spec wellFormed inside
  obtain ⟨tape, compiled, args, result⟩ := exists_compile wellFormed inside variableCount
  have analysed := degree_eq wellFormed inside
  refine ⟨order, _, tape, ⟨found, (grows.subtree_eq wellFormed inside).trans found⟩,
    ⟨analysed, (grows.degree_eq wellFormed inside).trans analysed⟩,
    ⟨compiled, (grows.compile_eq wellFormed inside variableCount).trans compiled⟩,
    fun assignment options => grows.eval_eq wellFormed inside fun _ _ => rfl,
    fun first second agree options => ?_⟩
  have occurs : ∀ id, graph.Occurs root id → first.get? id = second.get? id :=
    fun id ⟨idx, reaches, leaf⟩ => agree idx ((valid.mem_iff idx).mpr reaches) id leaf
  exact ⟨(growsTo_refl graph).eval_eq wellFormed inside occurs,
    tape_run_congr (fun instruction member id read => occurs id (args instruction member id read))
      fun id leaf => occurs id (result id leaf)⟩

/-- A second variable and its product with the shared expression are added, a depth hint is
changed, and the negation of a node that is missing is refused. -/
def widening : List (Request Float) :=
  [.insert { uid := ⟨4⟩, kind := .leaf 1 },
    .setDepth 3 9,
    .insert { uid := ⟨5⟩, kind := .operator .negation [7] },
    .insert { uid := ⟨6⟩, kind := .operator .product [3, 4] }]

/-- A value for the second variable makes no difference to the first expression. -/
theorem session_local_widening :
    sharedExponential.Built ∧ 3 < sharedExponential.size ∧
      (sharedExponential.session widening).size = 6 ∧
      ∃ tape, sharedExponential.compile 3 0 = .ok tape ∧
        (sharedExponential.session widening).compile 3 0 = .ok tape ∧
        ∀ options : EvalOptions,
          tape.eval (Assignment.ofList [(0.5 : Float)]) options =
              tape.eval (Assignment.ofList [(0.5 : Float), 2.0]) options ∧
            sharedExponential.eval 3 (Assignment.ofList [(0.5 : Float)]) options =
              (sharedExponential.session widening).eval 3
                (Assignment.ofList [(0.5 : Float), 2.0]) options := by
  have inside : 3 < sharedExponential.size := by decide
  obtain ⟨order, degree, tape, -, -, ⟨compiled, stable⟩, lasting, agreeing⟩ :=
    session_local (A := Float) built_sharedExponential inside widening 0
  refine ⟨built_sharedExponential, inside, rfl, tape, compiled, stable, fun options => ?_⟩
  obtain ⟨same, onTape⟩ := agreeing (.ofList [0.5]) (.ofList [0.5, 2.0]) (fun idx _ id known => by
    rcases idx with _ | _ | _ | _ | idx <;> cases known
    rfl) options
  exact ⟨onTape, same.trans (lasting _ options).symm⟩

end Graph

end MixedInteger
