import Mathlib.Algebra.Group.Nat.Defs
import MixedInteger.Proofs.Expression.Growth

/-! # The representation of a graph

A graph takes the nodes it is offered in turn and numbers them in that order. Whatever it
accepts or refuses, every node stands behind its children and says where it is
(`Graph.Orderly`), and the depths that are kept beside the nodes are those that the kinds of
the nodes determine. Nothing but a depth hint of a node ever changes
(`Graph.session_representation`).
-/

namespace MixedInteger

variable {K : Type}

namespace NodeKind

/-- The structural depth of a node over those of its children. -/
def depthOver (depth : NodeIdx → Nat) : NodeKind K → Nat
  | leaf _ => 0
  | constant _ => 1
  | operator _ children => (children.map depth).max?.getD 0 + 1

/-- The depth over the children depends on their own depths only. -/
theorem depthOver_congr {kind : NodeKind K} {depth other : NodeIdx → Nat}
    (same : ∀ child ∈ kind.children, depth child = other child) :
    kind.depthOver depth = kind.depthOver other := by
  cases kind with
  | leaf | constant => rfl
  | operator op children =>
      have depths : children.map depth = children.map other := List.map_congr_left same
      rw [depthOver, depthOver, depths]

/-- An operator that passes the check of its child count has a count that it accepts. -/
theorem accepts_of_checkArity {kind : NodeKind K} (formed : kind.checkArity = .ok ())
    {op : Operator K} {children : List NodeIdx} (same : kind = .operator op children) :
    op.arity.accepts children.length = true := by
  rw [same, checkArity] at formed
  split at formed
  · assumption
  · cases formed

end NodeKind

namespace Graph

variable {graph next : Graph K} {node : Node K} {idx : NodeIdx}

/-! ## Which nodes a graph takes -/

/-- What a graph asks of a node that is offered to it. -/
structure Admits (graph : Graph K) (node : Node K) : Prop where
  unattached : node.idx = none
  graph_eq : ∀ claimed, node.graph = some claimed → claimed = graph.id
  problem_eq : ∀ claimed owner, node.problem = some claimed → graph.problem = some owner →
    claimed = owner
  child_lt : ∀ child ∈ node.children, child < graph.size

/-- The claims of a node pass if it is unattached and names no other graph and no other problem. -/
theorem checkClaims_eq_ok_iff : graph.checkClaims node = .ok () ↔
    node.idx = none ∧ (∀ claimed, node.graph = some claimed → claimed = graph.id) ∧
      ∀ claimed owner, node.problem = some claimed → graph.problem = some owner →
        claimed = owner := by
  obtain ⟨uid, place, hint, claimed, key, kind⟩ := node
  unfold checkClaims Node.isAttached
  cases place with
  | some place => simp
  | none =>
      by_cases foreign : ∃ other, key = some other ∧ other ≠ graph.id
      · obtain ⟨other, rfl, differs⟩ := foreign
        simp [differs, Option.filter]
      · have own : key.filter (· ≠ graph.id) = none := by
          cases key with
          | none => rfl
          | some other => simpa using foreign
        simp only [Option.isSome_none, Bool.false_eq_true, ↓reduceIte, own, true_and]
        cases claimed <;> cases graph.problem <;> simp_all

/-- A graph with room takes a node exactly when it admits the node. -/
theorem exists_insert_eq_ok_iff (measured : graph.depths.size = graph.size)
    (room : graph.size ≤ largestWord) :
    (∃ idx next, graph.insert node = (.ok idx, next)) ↔ graph.Admits node := by
  constructor
  · rintro ⟨idx, next, inserted⟩
    obtain ⟨claims, -, -, depth, known, -⟩ := insert_eq_ok inserted
    obtain ⟨unattached, key, problem⟩ := checkClaims_eq_ok_iff.mp claims
    exact ⟨unattached, key, problem, fun child => child_lt_size_of_depthOf known⟩
  · intro admits
    have claims := checkClaims_eq_ok_iff.mpr
      ⟨admits.unattached, admits.graph_eq, admits.problem_eq⟩
    have fits : Position.graphNode.check graph.size = .ok graph.size := if_pos room
    obtain ⟨depth, known⟩ := exists_depthOf_eq_ok measured admits.child_lt
    exact ⟨_, _, by rw [insert, claims]; dsimp only; rw [fits, known]⟩

/-! ## The depths beside the nodes -/

/-- The depth that is kept at an index, or zero outside the graph. -/
def depthAt (graph : Graph K) (idx : NodeIdx) : Nat := (graph.depths.getD idx 0).toNat

/-- The depths are those that the kinds of the nodes determine, as far as they fit into
a word. -/
structure Measured (graph : Graph K) : Prop where
  depths_size : graph.depths.size = graph.size
  depthAt_eq_mod : ∀ idx node, graph.get? idx = some node →
    graph.depthAt idx = node.kind.depthOver graph.depthAt % 2 ^ 32

theorem measured_empty (id : GraphId) (problem : Option ProblemId) :
    Measured ({ id, problem } : Graph K) where
  depths_size := rfl
  depthAt_eq_mod idx node held := by simp [get?] at held

/-- The depth of a node of the graph is the word that is kept for it. -/
theorem vertexDepth_eq_getD (measured : graph.depths.size = graph.size)
    (inside : idx < graph.size) : graph.vertexDepth idx = .ok (graph.depths.getD idx 0) := by
  obtain ⟨depth, stored⟩ : ∃ depth, graph.depths[idx]? = some depth :=
    ⟨_, Array.getElem?_eq_getElem (measured ▸ inside)⟩
  rw [vertexDepth, Array.getD_eq_getD_getElem?, stored]
  rfl

/-- The depth of a node of the graph, as a number. -/
theorem vertexDepth_eq_depthAt (measured : graph.depths.size = graph.size)
    (inside : idx < graph.size) :
    (graph.vertexDepth idx).map UInt32.toNat = .ok (graph.depthAt idx) := by
  rw [vertexDepth_eq_getD measured inside]
  rfl

/-- The largest of a list of words, as a number. -/
theorem toNat_foldl_max (words : List UInt32) (start : UInt32) :
    (words.foldl max start).toNat = (words.map UInt32.toNat).foldl max start.toNat := by
  induction words generalizing start with
  | nil => rfl
  | cons word rest ih =>
      rw [List.foldl_cons, ih, UInt32.toNat_max, List.map_cons, List.foldl_cons]

/-- The depth that a node takes on is determined by those of its children. -/
theorem depthOf_eq {depth : UInt32} (measured : graph.depths.size = graph.size)
    (known : graph.depthOf node = .ok depth) :
    depth.toNat = node.kind.depthOver graph.depthAt % 2 ^ 32 := by
  have inside : ∀ child ∈ node.children, child < graph.size :=
    fun child => child_lt_size_of_depthOf known
  unfold depthOf at known
  unfold Node.children at inside
  split at known
  · rename_i id kind
    cases known
    rw [kind]
    rfl
  · rename_i value kind
    cases known
    rw [kind]
    rfl
  · rename_i op children kind
    rw [kind] at inside ⊢
    have each : ∀ child ∈ children,
        graph.childDepth node child = .ok (graph.depths.getD child 0) := by
      intro child member
      rw [childDepth, if_pos (inside child member),
        vertexDepth_eq_getD measured (inside child member)]
    rw [Outcome.mapM_eq_ok_map each] at known
    cases known
    rw [UInt32.toNat_add, toNat_foldl_max, List.map_map, NodeKind.depthOver]
    exact congrArg (fun deepest => (deepest + 1) % 2 ^ 32) (List.foldl_max.trans (Nat.zero_max _))

/-- An insertion adds the depth of the new node to those that are kept. -/
theorem depthAt_of_insert (measured : graph.depths.size = graph.size)
    (inserted : graph.insert node = (.ok idx, next)) (query : NodeIdx) :
    next.depthAt query =
      if query = graph.size then node.kind.depthOver graph.depthAt % 2 ^ 32
      else graph.depthAt query := by
  obtain ⟨-, -, -, depth, known, rfl⟩ := insert_eq_ok inserted
  rw [← depthOf_eq measured known, depthAt, depthAt, Array.getD_eq_getD_getElem?,
    Array.getD_eq_getD_getElem?, Array.getElem?_push, measured]
  split <;> rfl

/-- A change of a depth hint does not change a structural depth. -/
theorem depthAt_of_setDepth {depth : Nat} (changed : graph.setDepth idx depth = (.ok (), next)) :
    next.depthAt = graph.depthAt := by
  obtain ⟨held, -, rfl⟩ := setDepth_eq_ok changed
  rfl

/-- The depth of a stored node does not change. -/
theorem Step.vertexDepth_of_lt (step : graph.Step next)
    (measured : graph.depths.size = graph.size) (inside : idx < graph.size) :
    next.vertexDepth idx = graph.vertexDepth idx := by
  cases step with
  | keep => rfl
  | insert inserted =>
      obtain ⟨-, -, -, depth, -, rfl⟩ := insert_eq_ok inserted
      unfold vertexDepth
      rw [Array.getElem?_push_lt (measured.symm ▸ inside),
        ← Array.getElem?_eq_getElem (measured.symm ▸ inside)]
      have stored := Array.getElem?_eq_getElem (measured.symm ▸ inside : idx < graph.depths.size)
      rw [stored]
  | setDepth changed =>
      obtain ⟨held, -, rfl⟩ := setDepth_eq_ok changed
      rfl

/-- An insertion keeps the depths right. -/
theorem Measured.insert (measured : graph.Measured) (wellFormed : graph.WellFormed)
    (inserted : graph.insert node = (.ok idx, next)) : next.Measured where
  depths_size := (Step.insert inserted).depths_size measured.depths_size
  depthAt_eq_mod query found held := by
    have kept (child : NodeIdx) (inside : child < graph.size) :
        graph.depthAt child = next.depthAt child := by
      rw [depthAt_of_insert measured.depths_size inserted, if_neg (Nat.ne_of_lt inside)]
    rw [depthAt_of_insert measured.depths_size inserted]
    rw [get?_of_insert inserted] at held
    split at held
    · rename_i last
      cases held
      rw [if_pos last]
      obtain ⟨-, -, -, depth, known, -⟩ := insert_eq_ok inserted
      exact congrArg (· % 2 ^ 32) (NodeKind.depthOver_congr fun child member =>
        kept child (child_lt_size_of_depthOf known member))
    · rename_i earlier
      rw [if_neg earlier, measured.depthAt_eq_mod query found held]
      exact congrArg (· % 2 ^ 32) (NodeKind.depthOver_congr fun child member =>
        kept child (Nat.lt_trans (wellFormed.child_lt held member) (lt_size_of_get?_eq_some held)))

/-- A change of a depth hint keeps the depths right. -/
theorem Measured.setDepth {depth : Nat} (measured : graph.Measured)
    (changed : graph.setDepth idx depth = (.ok (), next)) : next.Measured where
  depths_size := (Step.setDepth changed).depths_size measured.depths_size
  depthAt_eq_mod query found held := by
    have kinds : next.kind? query = graph.kind? query := kind_of_setDepth changed
    rw [kind?_eq held] at kinds
    obtain ⟨earlier, before, same⟩ := Option.map_eq_some_iff.mp kinds.symm
    rw [depthAt_of_setDepth changed, ← same]
    exact measured.depthAt_eq_mod query earlier before

/-- A path from a node down to a leaf goes through smaller and smaller indices. -/
theorem Measured.depthOver_le (measured : graph.Measured) (wellFormed : graph.WellFormed)
    (held : graph.get? idx = some node) : node.kind.depthOver graph.depthAt ≤ idx + 1 := by
  induction idx using Nat.strongRecOn generalizing node with
  | ind idx ih =>
      have below : ∀ child ∈ node.kind.children, graph.depthAt child ≤ idx := by
        intro child member
        have before := wellFormed.child_lt held member
        obtain ⟨other, found⟩ :=
          get?_eq_some_of_lt (Nat.lt_trans before (lt_size_of_get?_eq_some held))
        rw [measured.depthAt_eq_mod child other found]
        exact Nat.le_trans (Nat.mod_le _ _) (Nat.le_trans (ih child before found) before)
      cases kind : node.kind with
      | leaf id => exact Nat.zero_le _
      | constant value => exact Nat.succ_le_succ (Nat.zero_le _)
      | operator op children =>
          rw [kind] at below
          refine Nat.succ_le_succ ?_
          cases deepest : (children.map graph.depthAt).max? with
          | none => exact Nat.zero_le _
          | some depth =>
              obtain ⟨child, member, rfl⟩ := List.mem_map.mp (List.max?_mem deepest)
              exact below child member

/-- No depth exceeds the number of nodes up to the index. -/
theorem Measured.depthAt_le (measured : graph.Measured) (wellFormed : graph.WellFormed)
    (held : graph.get? idx = some node) : graph.depthAt idx ≤ idx + 1 := by
  rw [measured.depthAt_eq_mod idx node held]
  exact Nat.le_trans (Nat.mod_le _ _) (measured.depthOver_le wellFormed held)

/-- Whether the depths are those that the kinds of the nodes determine. -/
def Levelled (graph : Graph K) : Prop :=
  ∀ idx node, graph.get? idx = some node → graph.depthAt idx = node.kind.depthOver graph.depthAt

/-- In a graph of fewer than `2 ^ 32` nodes every depth fits into a word. -/
theorem Measured.levelled (measured : graph.Measured) (wellFormed : graph.WellFormed)
    (small : graph.size < 2 ^ 32) : graph.Levelled := by
  intro idx node held
  have inside : idx + 1 ≤ graph.size := lt_size_of_get?_eq_some held
  have bound := measured.depthOver_le wellFormed held
  rw [measured.depthAt_eq_mod idx node held]
  exact Nat.mod_eq_of_lt (Nat.lt_of_le_of_lt bound (Nat.lt_of_le_of_lt inside small))

/-- The largest of the depths. -/
theorem maxDepth_eq (measured : graph.depths.size = graph.size) :
    graph.maxDepth.toNat = ((List.range graph.size).map graph.depthAt).max?.getD 0 := by
  have listed : graph.depths.toList.map UInt32.toNat =
      (List.range graph.size).map graph.depthAt := by
    refine List.ext_getElem (by simp [measured]) fun position inside _ => ?_
    have stored : position < graph.depths.size := by simpa using inside
    simp [depthAt, stored]
  rw [maxDepth, ← Array.foldl_toList, toNat_foldl_max, listed]
  exact List.foldl_max.trans (Nat.zero_max _)

/-- The depths beside the nodes of a built graph are those of their kinds. -/
theorem Built.measured (built : graph.Built) : graph.Measured := by
  induction built with
  | empty id problem => exact measured_empty id problem
  | insert built _ inserted ih => exact ih.insert built.wellFormed inserted
  | setDepth _ changed ih => exact ih.setDepth changed

/-! ## What a graph keeps -/

/-- What a graph is for everything that reads it: its nodes say where they are, they stand
behind their children, and the depths beside them are right. -/
structure Orderly (graph : Graph K) : Prop where
  placed : graph.Placed
  wellFormed : graph.WellFormed
  measured : graph.Measured

theorem orderly_empty (id : GraphId) (problem : Option ProblemId) :
    Orderly ({ id, problem } : Graph K) :=
  ⟨placed_empty id problem, wellFormed_empty id problem, measured_empty id problem⟩

/-- What a caller may ask of a graph. -/
inductive Request (K : Type) where
  | insert (node : Node K)
  | setDepth (idx : NodeIdx) (depth : Nat)

/-- What a request leaves of a graph. -/
def Request.perform (graph : Graph K) : Request K → Graph K
  | insert node => (graph.insert node).2
  | setDepth idx depth => (graph.setDepth idx depth).2

/-- The graph after requests, answered in turn. -/
def session (graph : Graph K) (requests : List (Request K)) : Graph K :=
  requests.foldl Request.perform graph

/-- A request leaves what may become of a graph in one step. -/
theorem step_perform (graph : Graph K) (request : Request K) :
    graph.Step (request.perform graph) := by
  cases request with
  | insert node => exact graph.step_insert node
  | setDepth idx depth => exact graph.step_setDepth idx depth

/-- Requests for prepared nodes keep a graph orderly. -/
theorem Orderly.perform (orderly : graph.Orderly) {request : Request K}
    (prepared : ∀ node, request = .insert node → node.Prepared) :
    (request.perform graph).Orderly := by
  have placed := orderly.placed.step (step_perform graph request)
  cases request with
  | insert node =>
      have formed := (prepared node rfl).formed
      simp only [Request.perform] at placed ⊢
      cases answered : graph.insert node with
      | mk answer next =>
          rw [answered] at placed
          cases answer with
          | ok idx =>
              exact ⟨placed, orderly.wellFormed.insert formed answered,
                orderly.measured.insert orderly.wellFormed answered⟩
          | error broken =>
              cases insert_eq_error answered
              exact orderly
  | setDepth idx depth =>
      simp only [Request.perform] at placed ⊢
      cases answered : graph.setDepth idx depth with
      | mk answer next =>
          rw [answered] at placed
          cases answer with
          | ok _ =>
              exact ⟨placed, orderly.wellFormed.of_kinds fun _ => kind_of_setDepth answered,
                orderly.measured.setDepth answered⟩
          | error broken =>
              cases setDepth_eq_error answered
              exact orderly

/-- Requests for prepared nodes, one after the other, keep a graph orderly. -/
theorem Orderly.session {requests : List (Request K)} (orderly : graph.Orderly)
    (prepared : ∀ node, .insert node ∈ requests → node.Prepared) :
    (graph.session requests).Orderly := by
  induction requests generalizing graph with
  | nil => exact orderly
  | cons request later ih =>
      refine ih (orderly.perform fun node same => ?_) fun node member => ?_
      · exact prepared node (same ▸ List.mem_cons_self)
      · exact prepared node (List.mem_cons_of_mem _ member)

/-- No session changes the key of a graph or its problem. -/
theorem owner_session (graph : Graph K) (requests : List (Request K)) :
    (graph.session requests).id = graph.id ∧ (graph.session requests).problem = graph.problem := by
  induction requests generalizing graph with
  | nil => exact ⟨rfl, rfl⟩
  | cons request later ih =>
      obtain ⟨sameId, sameProblem⟩ := (step_perform graph request).owner_eq
      obtain ⟨laterId, laterProblem⟩ := ih (request.perform graph)
      exact ⟨laterId.trans sameId, laterProblem.trans sameProblem⟩

/-- A stored node and its structural depth outlast all later requests. -/
theorem held_session (held : graph.get? idx = some node)
    (measured : graph.depths.size = graph.size) (later : List (Request K)) :
    (∃ hint, (graph.session later).get? idx = some { node with depth := hint }) ∧
      (graph.session later).vertexDepth idx = graph.vertexDepth idx := by
  induction later generalizing graph node with
  | nil => exact ⟨⟨node.depth, held⟩, rfl⟩
  | cons request later ih =>
      have step := step_perform graph request
      obtain ⟨middle, heldNext⟩ := step.held_after held
      obtain ⟨heldLater, same⟩ := ih heldNext (step.depths_size measured)
      exact ⟨heldLater, same.trans
        (step.vertexDepth_of_lt measured (lt_size_of_get?_eq_some held))⟩

/-! ## Graphs made to order -/

/-- The graph that insertions of free nodes build, when every index is to stand for what a
function says of it. -/
def ofKinds (kinds : Nat → NodeKind K) (count : Nat) : Graph K :=
  session { id := ⟨0, 0⟩ } <|
    (List.range count).map fun idx => .insert { uid := ⟨UInt64.ofNat idx⟩, kind := kinds idx }

/-- A graph made to order grows by one node. -/
theorem ofKinds_succ (kinds : Nat → NodeKind K) (count : Nat) : ofKinds kinds (count + 1) =
    ((ofKinds kinds count).insert { uid := ⟨UInt64.ofNat count⟩, kind := kinds count }).2 := by
  rw [ofKinds, List.range_succ, List.map_append, session, List.foldl_append]
  rfl

/-- Graphs are made to order wherever operators have as many children as they take, and
children come first, as long as there are indices. -/
theorem built_ofKinds {kinds : Nat → NodeKind K} {count : Nat} (fits : count ≤ 2 ^ 32)
    (formed : ∀ idx, idx < count → (kinds idx).checkArity = .ok ())
    (lower : ∀ idx, idx < count → ∀ child ∈ (kinds idx).children, child < idx) :
    (ofKinds kinds count).Built ∧ (ofKinds kinds count).size = count ∧
      ∀ idx, idx < count → (ofKinds kinds count).kind? idx = some (kinds idx) := by
  induction count with
  | zero => exact ⟨.empty ⟨0, 0⟩ none, rfl, nofun⟩
  | succ count ih =>
      have last := Nat.lt_succ_self count
      obtain ⟨built, size, known⟩ := ih (Nat.le_of_succ_le fits)
        (fun idx before => formed idx (Nat.lt_succ_of_lt before))
        fun idx before => lower idx (Nat.lt_succ_of_lt before)
      have room : (ofKinds kinds count).size ≤ largestWord := by
        rw [size]
        exact Nat.le_of_lt_succ fits
      have admits : (ofKinds kinds count).Admits
          { uid := ⟨UInt64.ofNat count⟩, kind := kinds count } :=
        ⟨rfl, nofun, nofun, fun child member => size.symm ▸ lower count last child member⟩
      obtain ⟨idx, next, inserted⟩ :=
        (exists_insert_eq_ok_iff built.measured.depths_size room).mpr admits
      rw [ofKinds_succ, inserted]
      refine ⟨built.insert (formed count last) inserted, ?_, fun query below => ?_⟩
      · rw [size_of_insert inserted, size]
      · rw [kind?_of_insert inserted, size]
        split
        · rename_i same
          rw [same]
        · rename_i earlier
          exact known query (Nat.lt_of_le_of_ne (Nat.le_of_lt_succ below) earlier)

/-- **A graph keeps its representation.** After any requests of an empty graph, refused ones
included: as long as there is room, a node is taken exactly when the graph admits it, and it
is taken at the next index. Every node says its index, the graph and the problem of the
graph; it has as many children as its operator takes, and they come before it. The
structural depths are those of the kinds in a graph of fewer than `2 ^ 32` nodes: zero for a
variable, one for a constant, and for an operator one more than the largest of its
children's. Later requests change nothing of a node but its depth hint. -/
theorem session_representation {id : GraphId} {problem : Option ProblemId}
    {requests : List (Request K)} (prepared : ∀ node, .insert node ∈ requests → node.Prepared)
    {graph : Graph K} (reached : session { id, problem } requests = graph) :
    graph.id = id ∧ graph.problem = problem ∧
    (graph.size ≤ largestWord → ∀ node,
      (∃ idx next, graph.insert node = (.ok idx, next)) ↔ graph.Admits node) ∧
    (∀ node idx next, graph.insert node = (.ok idx, next) →
      idx = graph.size ∧ next.size = graph.size + 1 ∧ next.get? idx = some (graph.attach node)) ∧
    (∀ idx node, graph.get? idx = some node →
      node.idx = some idx ∧ node.graph = some id ∧
      (∀ owner, problem = some owner → node.problem = some owner) ∧
      (∀ op children, node.kind = .operator op children →
        op.arity.accepts children.length = true) ∧
      ∀ child ∈ node.children, child < idx) ∧
    (∃ depth : NodeIdx → Nat,
      (∀ idx node, graph.get? idx = some node →
        (graph.vertexDepth idx).map UInt32.toNat = .ok (depth idx) ∧
          (graph.size < 2 ^ 32 → depth idx = node.kind.depthOver depth) ∧
          depth idx ≤ idx + 1) ∧
      graph.maxDepth.toNat = ((List.range graph.size).map depth).max?.getD 0) ∧
    ∀ later idx node, graph.get? idx = some node →
      (∃ hint, (graph.session later).get? idx = some { node with depth := hint }) ∧
        (graph.session later).vertexDepth idx = graph.vertexDepth idx := by
  have orderly : graph.Orderly := reached ▸ (orderly_empty id problem).session prepared
  obtain ⟨sameId, sameProblem⟩ : graph.id = id ∧ graph.problem = problem :=
    reached ▸ owner_session { id, problem } requests
  obtain ⟨placed, wellFormed, measured⟩ := orderly
  have depths := measured.depths_size
  refine ⟨sameId, sameProblem, fun room node => exists_insert_eq_ok_iff depths room,
    fun node idx next inserted => ?_, fun idx node held => ?_,
    ⟨graph.depthAt, fun idx node held => ?_, maxDepth_eq depths⟩,
    fun later idx node held => held_session held depths later⟩
  · obtain ⟨-, rfl, -⟩ := insert_eq_ok inserted
    exact ⟨rfl, size_of_insert inserted, by rw [get?_of_insert inserted, if_pos rfl]⟩
  · exact ⟨placed.idx_eq idx node held, sameId ▸ placed.graph_eq idx node held,
      fun owner owned => placed.problem_eq idx node owner held (sameProblem.trans owned),
      fun op children kind => NodeKind.accepts_of_checkArity (wellFormed.arity held) kind,
      fun child => wellFormed.child_lt held⟩
  · exact ⟨vertexDepth_eq_depthAt depths (lt_size_of_get?_eq_some held),
      fun small => measured.levelled wellFormed small idx node held,
      measured.depthAt_le wellFormed held⟩

/-- A variable and a sum are taken. A negation whose child is missing and a constant that
names another problem are refused. -/
def partlyRefused : List (Request Float) :=
  [.insert { uid := ⟨0⟩, kind := .leaf 0 },
    .insert { uid := ⟨1⟩, kind := .operator .negation [3] },
    .setDepth 0 7,
    .insert { uid := ⟨2⟩, problem := some ⟨1, 0⟩, kind := .constant 1.0 },
    .insert { uid := ⟨3⟩, kind := .operator .sum [0, 0] }]

/-- All nodes of these requests are made by constructors. -/
theorem prepared_partlyRefused (node : Node Float) (member : .insert node ∈ partlyRefused) :
    node.Prepared := by
  have created (number : UInt64) (kind : NodeKind Float) (formed : kind.checkArity = .ok ())
      (remaining : number ≠ 18446744073709551615) : Node.Prepared { uid := ⟨number⟩, kind } := by
    refine @Node.Prepared.create _ ⟨number⟩ kind _ ?_
    rw [Node.create, formed, UidSource.issue, if_neg remaining]
    rfl
  simp only [partlyRefused, List.mem_cons, Request.insert.injEq, reduceCtorEq, List.not_mem_nil,
    false_or, or_false] at member
  rcases member with rfl | rfl | rfl | rfl
  · exact created 0 _ rfl (by decide)
  · exact created 1 _ rfl (by decide)
  · exact (created 2 (.constant 1.0) rfl (by decide)).setProblem rfl
  · exact created 3 _ rfl (by decide)

/-- The sum stands behind the variable, one above it, and the constant is still refused. -/
theorem session_representation_partlyRefused :
    ∃ graph node, session { id := ⟨0, 0⟩, problem := some ⟨0, 0⟩ } partlyRefused = graph ∧
      graph.get? 1 = some node ∧ node.idx = some 1 ∧ node.problem = some ⟨0, 0⟩ ∧
      (graph.vertexDepth 1).map UInt32.toNat = .ok 1 ∧
      ¬ ∃ idx next, graph.insert { uid := ⟨2⟩, problem := some ⟨1, 0⟩, kind := .constant 1.0 } =
        (.ok idx, next) := by
  have reached : ∃ graph leaf sum,
      session { id := ⟨0, 0⟩, problem := some ⟨0, 0⟩ } partlyRefused = graph ∧
        graph.get? 0 = some leaf ∧ leaf.kind = .leaf 0 ∧
        graph.get? 1 = some sum ∧ sum.kind = .operator .sum [0, 0] ∧ graph.size = 2 :=
    ⟨_, _, _, rfl, rfl, rfl, rfl, rfl, rfl⟩
  obtain ⟨graph, leaf, sum, reached, heldLeaf, leafKind, heldSum, sumKind, size⟩ :=
    reached
  obtain ⟨-, sameProblem, admission, -, nodes, ⟨depth, depths, -⟩, -⟩ :=
    session_representation prepared_partlyRefused reached
  obtain ⟨place, -, owned, -, -⟩ := nodes 1 sum heldSum
  obtain ⟨-, leafDepth, -⟩ := depths 0 leaf heldLeaf
  obtain ⟨stored, sumDepth, -⟩ := depths 1 sum heldSum
  have small : graph.size < 2 ^ 32 := by
    rw [size]
    decide
  replace leafDepth := leafDepth small
  replace sumDepth := sumDepth small
  rw [leafKind, NodeKind.depthOver] at leafDepth
  rw [sumKind, NodeKind.depthOver, List.map_cons, List.map_singleton, leafDepth] at sumDepth
  refine ⟨graph, sum, reached, heldSum, place, owned _ rfl, stored.trans (congrArg _ sumDepth),
    fun taken => ?_⟩
  have admits := (admission (by rw [size]; decide) _).mp taken
  cases admits.problem_eq ⟨1, 0⟩ ⟨0, 0⟩ rfl sameProblem

end Graph

end MixedInteger
