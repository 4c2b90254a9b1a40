import MixedInteger.Proofs.Expression.Construction

/-! # Graphs that grow

A graph changes by insertions and by changes of depth hints. Neither takes back
what a node stands for, and neither changes to whom the graph belongs.
-/

namespace MixedInteger

variable {K : Type}

namespace Graph

variable {graph next : Graph K}

/-- What may become of a graph in one step. -/
inductive Step (graph : Graph K) : Graph K → Prop where
  | keep : Step graph graph
  | insert {node : Node K} {idx : NodeIdx} {next : Graph K}
      (inserted : graph.insert node = (.ok idx, next)) : Step graph next
  | setDepth {idx : NodeIdx} {depth : Nat} {next : Graph K}
      (changed : graph.setDepth idx depth = (.ok (), next)) : Step graph next

/-- Whatever an insertion answers, it leaves what may become of a graph in one step. -/
theorem step_insert (graph : Graph K) (node : Node K) : graph.Step (graph.insert node).2 := by
  cases answered : graph.insert node with
  | mk answer next =>
      cases answer with
      | ok idx => exact .insert answered
      | error broken =>
          cases insert_eq_error answered
          exact .keep

/-- Whatever a change of a depth hint answers, it leaves what may become of a graph in one
step. -/
theorem step_setDepth (graph : Graph K) (idx : NodeIdx) (depth : Nat) :
    graph.Step (graph.setDepth idx depth).2 := by
  cases answered : graph.setDepth idx depth with
  | mk answer next =>
      cases answer with
      | ok _ => exact .setDepth answered
      | error broken =>
          cases setDepth_eq_error answered
          exact .keep

/-- An insertion adds one node behind all others. -/
theorem get?_of_insert {node : Node K} {idx : NodeIdx}
    (inserted : graph.insert node = (.ok idx, next)) (query : NodeIdx) :
    next.get? query =
      if query = graph.size then some (graph.attach node) else graph.get? query := by
  obtain ⟨-, -, -, depth, -, rfl⟩ := insert_eq_ok inserted
  exact get?_push graph _ _ query

/-- An insertion adds one node. -/
theorem size_of_insert {node : Node K} {idx : NodeIdx}
    (inserted : graph.insert node = (.ok idx, next)) : next.size = graph.size + 1 := by
  obtain ⟨-, -, -, depth, -, rfl⟩ := insert_eq_ok inserted
  exact Array.size_push _

/-- Setting a depth adds no node. -/
theorem size_of_setDepth {idx : NodeIdx} {depth : Nat}
    (changed : graph.setDepth idx depth = (.ok (), next)) : next.size = graph.size := by
  obtain ⟨node, -, rfl⟩ := setDepth_eq_ok changed
  exact Array.size_setIfInBounds

/-- A graph keeps its key and its problem. -/
theorem Step.owner_eq (step : graph.Step next) :
    next.id = graph.id ∧ next.problem = graph.problem := by
  cases step with
  | keep => exact ⟨rfl, rfl⟩
  | insert inserted =>
      obtain ⟨-, -, -, depth, -, rfl⟩ := insert_eq_ok inserted
      exact ⟨rfl, rfl⟩
  | setDepth changed =>
      obtain ⟨node, -, rfl⟩ := setDepth_eq_ok changed
      exact ⟨rfl, rfl⟩

/-- A node of a graph was there before, its depth hint apart, or has been attached. -/
theorem Step.held_before (step : graph.Step next) {idx : NodeIdx} {node : Node K}
    (held : next.get? idx = some node) :
    (∃ earlier hint, graph.get? idx = some earlier ∧ node = { earlier with depth := hint }) ∨
      (idx = graph.size ∧ ∃ free, node = graph.attach free) := by
  cases step with
  | keep => exact .inl ⟨node, node.depth, held, rfl⟩
  | @setDepth _ depth _ changed =>
      rw [get?_of_setDepth changed] at held
      split at held
      · obtain ⟨earlier, before, rfl⟩ := Option.map_eq_some_iff.mp held
        exact .inl ⟨earlier, depth, before, rfl⟩
      · exact .inl ⟨node, node.depth, held, rfl⟩
  | @insert free _ _ inserted =>
      rw [get?_of_insert inserted] at held
      split at held
      · rename_i last
        cases held
        exact .inr ⟨last, free, rfl⟩
      · exact .inl ⟨node, node.depth, held, rfl⟩

/-- A node of a graph stays, its depth hint apart. -/
theorem Step.held_after (step : graph.Step next) {idx : NodeIdx} {node : Node K}
    (held : graph.get? idx = some node) :
    ∃ hint, next.get? idx = some { node with depth := hint } := by
  cases step with
  | keep => exact ⟨node.depth, held⟩
  | @setDepth changedIdx depth _ changed =>
      rw [get?_of_setDepth changed, held]
      by_cases same : idx = changedIdx
      · exact ⟨depth, by rw [if_pos same, Option.map_some]⟩
      · exact ⟨node.depth, by rw [if_neg same]⟩
  | insert inserted =>
      rw [get?_of_insert inserted, if_neg (Nat.ne_of_lt (lt_size_of_get?_eq_some held))]
      exact ⟨node.depth, held⟩

/-- No step takes a node away. -/
theorem Step.size_le (step : graph.Step next) : graph.size ≤ next.size := by
  cases step with
  | keep => exact Nat.le_refl _
  | insert inserted => exact size_of_insert inserted ▸ Nat.le_succ _
  | setDepth changed => exact Nat.le_of_eq (size_of_setDepth changed).symm

/-- After an insertion the new index has the kind of the node, and all others have theirs. -/
theorem kind?_of_insert {node : Node K} {idx : NodeIdx}
    (inserted : graph.insert node = (.ok idx, next)) (query : NodeIdx) :
    next.kind? query = if query = graph.size then some node.kind else graph.kind? query := by
  rw [kind?, get?_of_insert inserted]
  split
  · rfl
  · rfl

/-- Every node goes on standing for what it stands for. -/
theorem Step.kind?_of_lt (step : graph.Step next) {idx : NodeIdx} (inside : idx < graph.size) :
    next.kind? idx = graph.kind? idx := by
  cases step with
  | keep => rfl
  | insert inserted => rw [kind?_of_insert inserted, if_neg (Nat.ne_of_lt inside)]
  | setDepth changed => exact kind_of_setDepth changed

/-- Only indices below the size have a kind. -/
theorem lt_size_of_kind?_eq_some {idx : NodeIdx} {kind : NodeKind K}
    (known : graph.kind? idx = some kind) : idx < graph.size := by
  obtain ⟨node, held, -⟩ := Option.map_eq_some_iff.mp known
  exact lt_size_of_get?_eq_some held

/-- What the nodes of a graph say about their place. -/
structure Placed (graph : Graph K) : Prop where
  idx_eq : ∀ idx node, graph.get? idx = some node → node.idx = some idx
  graph_eq : ∀ idx node, graph.get? idx = some node → node.graph = some graph.id
  problem_eq : ∀ idx node owner, graph.get? idx = some node → graph.problem = some owner →
    node.problem = some owner

theorem placed_empty (id : GraphId) (problem : Option ProblemId) :
    Placed ({ id, problem } : Graph K) := by
  have empty (idx : NodeIdx) : get? ({ id, problem } : Graph K) idx = none := rfl
  constructor <;> simp [empty]

/-- Every step keeps the nodes in place. -/
theorem Placed.step (placed : graph.Placed) (step : graph.Step next) : next.Placed := by
  obtain ⟨sameId, sameProblem⟩ := step.owner_eq
  refine ⟨fun idx node held => ?_, fun idx node held => ?_, fun idx node owner held owned => ?_⟩
  all_goals
    obtain ⟨earlier, depth, before, rfl⟩ | ⟨rfl, free, rfl⟩ := step.held_before held
  · exact placed.idx_eq idx earlier before
  · rfl
  · exact sameId ▸ placed.graph_eq idx earlier before
  · exact sameId ▸ rfl
  · exact placed.problem_eq idx earlier owner before (sameProblem ▸ owned)
  · rw [sameProblem] at owned
    simp [attach, owned]

/-- Every node has a structural depth. -/
theorem Step.depths_size (step : graph.Step next) (measured : graph.depths.size = graph.size) :
    next.depths.size = next.size := by
  cases step with
  | keep => exact measured
  | insert inserted =>
      obtain ⟨-, -, -, depth, -, rfl⟩ := insert_eq_ok inserted
      simp only [size, Array.size_push] at measured ⊢
      rw [measured]
  | setDepth changed =>
      rw [size_of_setDepth changed, ← measured]
      obtain ⟨node, -, rfl⟩ := setDepth_eq_ok changed
      rfl

/-- The depth of a node is known once its children are held. -/
theorem exists_depthOf_eq_ok (measured : graph.depths.size = graph.size) {node : Node K}
    (held : ∀ child ∈ node.kind.children, child < graph.size) :
    ∃ depth, graph.depthOf node = .ok depth := by
  unfold depthOf
  split
  · exact ⟨0, rfl⟩
  · exact ⟨1, rfl⟩
  · rename_i op children kind
    rw [kind] at held
    have each : ∀ child ∈ children, ∃ depth, graph.childDepth node child = .ok depth := by
      intro child member
      have inside : child < graph.size := held child member
      obtain ⟨depth, stored⟩ : ∃ depth, graph.depths[child]? = some depth :=
        ⟨_, Array.getElem?_eq_getElem (measured ▸ inside)⟩
      exact ⟨depth, by rw [childDepth, if_pos inside, vertexDepth, stored]⟩
    obtain ⟨depths, traversed⟩ := Outcome.exists_mapM_eq_ok each
    exact ⟨_, by rw [traversed, Outcome.ok_bind]; rfl⟩

end Graph

end MixedInteger
