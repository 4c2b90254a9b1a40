import MixedInteger.Expression.Graph
import MixedInteger.Proofs.Outcome

/-! # Graphs that are built by insertions

Insertion takes a child only when it is in the graph already, so the children of
every node of a built graph have smaller indices than the node. Together with
the number of children, which a node fixes when it is created, this is what
evaluation, compilation and the analyses rest on.
-/

namespace MixedInteger

variable {K : Type}

namespace Node

/-- A node is created for a kind whose operator takes as many children as it has. -/
theorem create_eq_ok {source : UidSource} {kind : NodeKind K} {node : Node K}
    (created : (create source kind).1 = .ok node) :
    kind.checkArity = .ok () ∧ ∃ uid, source.issue.1 = .ok uid ∧ node = { uid, kind } := by
  unfold create at created
  split at created
  · cases created
  · rename_i formed
    cases issued : source.issue.1 with
    | error broken =>
        rw [issued] at created
        cases created
    | ok uid =>
        rw [issued] at created
        cases created
        exact ⟨formed, uid, rfl, rfl⟩

/-- The nodes that a caller can come by. A node is created, and may then be given a depth
hint, an index and owners in any order. A graph that takes it over may hand out copies. -/
inductive Prepared : Node K → Prop where
  | create {source : UidSource} {kind : NodeKind K} {node : Node K}
      (created : (create source kind).1 = .ok node) : Prepared node
  | hint {node : Node K} (prepared : Prepared node) (depth : Nat) : Prepared { node with depth }
  | setIdx {node next : Node K} {idx : NodeIdx} (prepared : Prepared node)
      (set : node.setIdx idx = .ok next) : Prepared next
  | setProblem {node next : Node K} {problem : ProblemId} (prepared : Prepared node)
      (set : node.setProblem problem = .ok next) : Prepared next
  | setGraph {node next : Node K} {graph : GraphId} (prepared : Prepared node)
      (set : node.setGraph graph = .ok next) : Prepared next
  | copy {node : Node K} (prepared : Prepared node) (graph : Graph K) :
      Prepared (graph.attach node)

/-- Setting the index leaves the kind of a node alone. -/
theorem kind_of_setIdx {node next : Node K} {idx : NodeIdx} (set : node.setIdx idx = .ok next) :
    next.kind = node.kind := by
  unfold setIdx at set
  split at set
  · split at set <;> cases set
    rfl
  · cases set
    rfl

/-- Setting the problem leaves the kind of a node alone. -/
theorem kind_of_setProblem {node next : Node K} {problem : ProblemId}
    (set : node.setProblem problem = .ok next) : next.kind = node.kind := by
  unfold setProblem at set
  split at set <;> cases set
  rfl

/-- Setting the graph leaves the kind of a node alone. -/
theorem kind_of_setGraph {node next : Node K} {graph : GraphId}
    (set : node.setGraph graph = .ok next) : next.kind = node.kind := by
  unfold setGraph at set
  split at set
  · split at set <;> cases set
    rfl
  · cases set
    rfl

/-- A prepared node has as many children as its operator takes. -/
theorem Prepared.formed {node : Node K} (prepared : Prepared node) :
    node.kind.checkArity = .ok () := by
  induction prepared with
  | create created =>
      obtain ⟨formed, uid, -, rfl⟩ := create_eq_ok created
      exact formed
  | hint _ _ ih => exact ih
  | setIdx _ set ih => rw [kind_of_setIdx set, ih]
  | setProblem _ set ih => rw [kind_of_setProblem set, ih]
  | setGraph _ set ih => rw [kind_of_setGraph set, ih]
  | copy _ _ ih => exact ih

end Node

namespace Graph

/-- What the node at an index stands for, if there is one. -/
def kind? (graph : Graph K) (idx : NodeIdx) : Option (NodeKind K) :=
  (graph.get? idx).map Node.kind

theorem kind?_eq {graph : Graph K} {idx : NodeIdx} {node : Node K}
    (held : graph.get? idx = some node) : graph.kind? idx = some node.kind := by
  rw [kind?, held, Option.map_some]

/-- The graphs that insertions of created nodes build from an empty graph. Depth
hints may change in between. -/
inductive Built : Graph K → Prop where
  | empty (id : GraphId) (problem : Option ProblemId) : Built { id, problem }
  | insert {graph next : Graph K} {node : Node K} {idx : NodeIdx} (built : Built graph)
      (formed : node.kind.checkArity = .ok ()) (inserted : graph.insert node = (.ok idx, next)) :
      Built next
  | setDepth {graph next : Graph K} {idx : NodeIdx} {depth : Nat} (built : Built graph)
      (changed : graph.setDepth idx depth = (.ok (), next)) : Built next

/-- What a graph promises about each of its nodes. -/
structure WellFormed (graph : Graph K) : Prop where
  /-- The children of a node come before it. -/
  child_lt : ∀ {idx : NodeIdx} {node : Node K} {child : NodeIdx}, graph.get? idx = some node →
    child ∈ node.children → child < idx
  /-- A node has as many children as its operator takes. -/
  arity : ∀ {idx : NodeIdx} {node : Node K}, graph.get? idx = some node →
    node.kind.checkArity = .ok ()

/-- What an insertion that succeeds has checked, and the graph it leaves. -/
theorem insert_eq_ok {graph next : Graph K} {node : Node K} {idx : NodeIdx}
    (inserted : graph.insert node = (.ok idx, next)) :
    graph.checkClaims node = .ok () ∧ idx = graph.size ∧ graph.size ≤ largestWord ∧
      ∃ depth, graph.depthOf node = .ok depth ∧
        next = { graph with
          nodes := graph.nodes.push (graph.attach node)
          depths := graph.depths.push depth } := by
  unfold insert at inserted
  cases claims : graph.checkClaims node with
  | error broken =>
      rw [claims] at inserted
      cases inserted
  | ok _ =>
      rw [claims] at inserted
      by_cases fits : graph.size ≤ largestWord
      · rw [show Position.graphNode.check graph.size = .ok graph.size from if_pos fits] at inserted
        cases known : graph.depthOf node with
        | error broken =>
            rw [known] at inserted
            cases inserted
        | ok depth =>
            rw [known] at inserted
            cases inserted
            exact ⟨rfl, rfl, fits, depth, rfl, rfl⟩
      · rw [show Position.graphNode.check graph.size = .error (.positionTooLarge .graphNode) from
          if_neg fits] at inserted
        cases inserted

/-- A graph that refuses a node is left as it was, whichever check the node fails. -/
theorem insert_eq_error {graph next : Graph K} {node : Node K} {broken : Violation}
    (refused : graph.insert node = (.error broken, next)) : next = graph := by
  unfold insert at refused
  split at refused
  · exact (congrArg Prod.snd refused).symm
  · split at refused
    · exact (congrArg Prod.snd refused).symm
    · split at refused <;> cases refused
      rfl

/-- The children of a node whose depth is known are in the graph. -/
theorem child_lt_size_of_depthOf {graph : Graph K} {node : Node K} {depth : UInt32}
    (known : graph.depthOf node = .ok depth) {child : NodeIdx} (member : child ∈ node.children) :
    child < graph.size := by
  unfold depthOf at known
  unfold Node.children at member
  split at known
  · rename_i id kind
    simp only [kind, NodeKind.children, List.not_mem_nil] at member
  · rename_i value kind
    simp only [kind, NodeKind.children, List.not_mem_nil] at member
  · rename_i op children kind
    simp only [kind, NodeKind.children] at member
    obtain ⟨depths, traversed, -⟩ := Outcome.bind_eq_ok_iff.mp known
    obtain ⟨childDepth, childOk⟩ := Outcome.ok_of_mapM_eq_ok traversed member
    unfold Graph.childDepth at childOk
    split at childOk
    · assumption
    · cases childOk

/-- A pushed node is found at the old size, and all others where they were. -/
theorem get?_push (graph : Graph K) (node : Node K) (depths : Array UInt32) (idx : NodeIdx) :
    get? { graph with nodes := graph.nodes.push node, depths } idx =
      if idx = graph.size then some node else graph.get? idx :=
  Array.getElem?_push

/-- Every index below the size holds a node. -/
theorem get?_eq_some_of_lt {graph : Graph K} {idx : NodeIdx} (inside : idx < graph.size) :
    ∃ node, graph.get? idx = some node :=
  ⟨graph.nodes[idx], Array.getElem?_eq_getElem inside⟩

theorem lt_size_of_get?_eq_some {graph : Graph K} {idx : NodeIdx} {node : Node K}
    (held : graph.get? idx = some node) : idx < graph.size :=
  (Array.getElem?_eq_some_iff.mp held).1

/-- A node is handed out for an index exactly when the graph holds it there. -/
theorem node_eq_ok_iff {graph : Graph K} {idx : NodeIdx} {node : Node K} :
    graph.node idx = .ok node ↔ graph.get? idx = some node := by
  unfold Graph.node
  cases graph.get? idx with
  | none => exact ⟨nofun, nofun⟩
  | some held => simp only [Except.ok.injEq, Option.some.injEq]

/-- A change of a depth hint that succeeds has found the node. -/
theorem setDepth_eq_ok {graph next : Graph K} {idx : NodeIdx} {depth : Nat}
    (changed : graph.setDepth idx depth = (.ok (), next)) : ∃ node, graph.get? idx = some node ∧
      next = { graph with nodes := graph.nodes.setIfInBounds idx { node with depth } } := by
  unfold setDepth at changed
  cases found : graph.node idx with
  | error broken =>
      rw [found] at changed
      cases changed
  | ok node =>
      rw [found] at changed
      cases changed
      exact ⟨node, node_eq_ok_iff.mp found, rfl⟩

/-- A graph without the node is left as it was. -/
theorem setDepth_eq_error {graph next : Graph K} {idx : NodeIdx} {depth : Nat}
    {broken : Violation} (refused : graph.setDepth idx depth = (.error broken, next)) :
    next = graph := by
  unfold setDepth at refused
  split at refused <;> cases refused
  rfl

/-- A change of a depth hint changes one node. -/
theorem get?_of_setDepth {graph next : Graph K} {idx : NodeIdx} {depth : Nat}
    (changed : graph.setDepth idx depth = (.ok (), next)) (query : NodeIdx) :
    next.get? query = if query = idx then (graph.get? query).map ({ · with depth })
      else graph.get? query := by
  obtain ⟨node, held, rfl⟩ := setDepth_eq_ok changed
  have inside : idx < graph.nodes.size := lt_size_of_get?_eq_some held
  by_cases same : query = idx
  · subst same
    rw [if_pos rfl, held, Option.map_some]
    simp only [get?, Array.getElem?_setIfInBounds_self, inside, ↓reduceIte]
  · simp only [same, ↓reduceIte, get?, Array.getElem?_setIfInBounds_ne (Ne.symm same)]

/-- A change of a depth hint keeps what every node stands for. -/
theorem kind_of_setDepth {graph next : Graph K} {idx query : NodeIdx} {depth : Nat}
    (changed : graph.setDepth idx depth = (.ok (), next)) : next.kind? query = graph.kind? query := by
  rw [kind?, get?_of_setDepth changed, kind?]
  split
  · rw [Option.map_map]
    rfl
  · rfl

theorem wellFormed_empty (id : GraphId) (problem : Option ProblemId) :
    WellFormed ({ id, problem } : Graph K) where
  child_lt held := by simp [get?] at held
  arity held := by simp [get?] at held

/-- Insertion of a created node keeps a graph well-formed. -/
theorem WellFormed.insert {graph next : Graph K} {node : Node K} {idx : NodeIdx}
    (wellFormed : graph.WellFormed) (formed : node.kind.checkArity = .ok ())
    (inserted : graph.insert node = (.ok idx, next)) : next.WellFormed := by
  obtain ⟨-, -, -, depth, known, rfl⟩ := insert_eq_ok inserted
  constructor
  · intro query held child found member
    rw [get?_push] at found
    split at found
    · rename_i last
      cases found
      rw [last]
      exact child_lt_size_of_depthOf known member
    · exact wellFormed.child_lt found member
  · intro query held found
    rw [get?_push] at found
    split at found
    · cases found
      exact formed
    · exact wellFormed.arity found

/-- Being well-formed depends only on what the nodes stand for. -/
theorem WellFormed.of_kinds {graph next : Graph K} (wellFormed : graph.WellFormed)
    (kinds : ∀ idx, next.kind? idx = graph.kind? idx) : next.WellFormed := by
  have earlier : ∀ {idx node}, next.get? idx = some node →
      ∃ held, graph.get? idx = some held ∧ held.kind = node.kind := by
    intro idx node found
    have same := kinds idx
    rw [kind?_eq found] at same
    exact Option.map_eq_some_iff.mp same.symm
  constructor
  · intro idx node child found member
    obtain ⟨held, before, same⟩ := earlier found
    refine wellFormed.child_lt before ?_
    rwa [Node.children, same]
  · intro idx node found
    obtain ⟨held, before, same⟩ := earlier found
    rw [← same]
    exact wellFormed.arity before

/-- The nodes of a built graph are attached under their indices. -/
theorem Built.idx_eq {graph : Graph K} (built : graph.Built) {idx : NodeIdx} {node : Node K}
    (held : graph.get? idx = some node) : node.idx = some idx := by
  induction built generalizing node with
  | empty id problem => simp [get?] at held
  | insert _ _ inserted ih =>
      obtain ⟨-, -, -, depth, -, rfl⟩ := insert_eq_ok inserted
      rw [get?_push] at held
      split at held
      · rename_i last
        cases held
        rw [last]
        rfl
      · exact ih held
  | setDepth _ changed ih =>
      rw [get?_of_setDepth changed] at held
      split at held
      · obtain ⟨earlier, before, rfl⟩ := Option.map_eq_some_iff.mp held
        have kept : earlier.idx = some idx := ih before
        exact kept
      · exact ih held

/-- Every built graph is well-formed. -/
theorem Built.wellFormed {graph : Graph K} (built : graph.Built) : graph.WellFormed := by
  induction built with
  | empty id problem => exact wellFormed_empty id problem
  | insert _ formed inserted ih => exact ih.insert formed inserted
  | setDepth _ changed ih => exact ih.of_kinds fun _ => kind_of_setDepth changed

end Graph

end MixedInteger
