import MixedInteger.Proofs.Model.Bounds
import MixedInteger.Proofs.Model.Ownership

/-! # Declarations

A problem refers to its graph by indices: every variable to its leaf, every constraint
and every objective to its root. A builder keeps these references right, and the names
and the bounds with them (`Problem.WellFormed.step`). Nodes that are attached to the
graph behind the builder's back do no harm to them, but they may be leaves of variables
that are not declared. With the builder alone there are none (`Problem.Declares.step`).
Both last from the creation of a problem to its end (`Model.session_wellFormed`).
-/

namespace MixedInteger

variable {K : Type}

namespace Problem

variable {problem later : Problem K}

/-- The names of all things of one kind. -/
def names (problem : Problem K) : Named → List String
  | .decisions => problem.decisions.map Variable.name
  | .constraints => problem.constraints.map Constraint.name
  | .objectives => problem.objectives.map Objective.name

/-- The roots of the constraints and of the objectives. -/
def roots (problem : Problem K) : List NodeIdx :=
  problem.constraints.map Constraint.root ++ problem.objectives.map Objective.root

/-- The bounds of the decisions and of the constraints. -/
def allBounds (problem : Problem K) : List (Bounds K) :=
  problem.decisions.map Variable.bounds ++ problem.constraints.map Constraint.bounds

/-- A name is free exactly when no declaration of its kind bears it. -/
theorem isTaken_eq_false_iff {kind : Named} {name : String} :
    problem.isTaken kind name = false ↔ name ∉ problem.names kind := by
  cases kind <;> simp [isTaken, names]

/-- A name leads to the variable that carries it. -/
theorem variableByName?_eq_some_iff (distinct : (problem.names .decisions).Nodup) {name : String}
    {id : VariableId} : problem.variableByName? name = some id ↔
      ∃ declared, problem.decisions[id]? = some declared ∧ declared.name = name := by
  rw [variableByName?, List.findIdx?_eq_some_iff_getElem]
  constructor
  · rintro ⟨inside, same, -⟩
    exact ⟨_, List.getElem?_eq_getElem inside, eq_of_beq same⟩
  · rintro ⟨declared, found, rfl⟩
    obtain ⟨inside, rfl⟩ := List.getElem?_eq_some_iff.mp found
    refine ⟨inside, beq_self_eq_true _, fun earlier before same => Nat.ne_of_lt before ?_⟩
    apply distinct.getElem_inj_iff.mp
    · simpa [names] using same
    · simpa [names] using Nat.lt_trans before inside
    · simpa [names] using inside

/-- A name that is free may be given to a new thing of its kind. -/
theorem names_nodup_of_concat {kind : Named} {name : String}
    (distinct : ∀ kind, (problem.names kind).Nodup) (free : problem.isTaken kind name = false)
    (added : later.names kind = problem.names kind ++ [name])
    (others : ∀ other, other ≠ kind → later.names other = problem.names other) :
    ∀ kind, (later.names kind).Nodup := by
  intro other
  by_cases same : other = kind
  · rw [same, added, ← List.concat_eq_append]
    exact (distinct kind).concat (isTaken_eq_false_iff.mp free)
  · rw [others other same]
    exact distinct other

/-! ## What a builder keeps -/

section Builder

variable [Scalar K] {graph next : Graph K} {builder rest : Builder K}

/-- What a problem promises about itself and about its graph. -/
structure WellFormed (problem : Problem K) (graph : Graph K) : Prop where
  names_nodup : ∀ kind, (problem.names kind).Nodup
  leaf : ∀ id declared, problem.decisions[id]? = some declared →
    graph.kind? declared.node = some (.leaf id)
  root_lt : ∀ root ∈ problem.roots, root < graph.size
  isValid : ∀ bounds ∈ problem.allBounds, bounds.isValid = true

/-- Every leaf of the graph stands for a variable of the problem. -/
def Declares (problem : Problem K) (graph : Graph K) : Prop :=
  ∀ idx id, graph.kind? idx = some (.leaf id) → id < problem.decisions.length

/-- A problem that declares nothing is well formed on any graph. -/
theorem wellFormed_empty (id : ProblemId) (name : String) (key : GraphId) (graph : Graph K) :
    WellFormed { id, name, graph := key } graph where
  names_nodup kind := by cases kind <;> exact List.nodup_nil
  leaf := nofun
  root_lt := nofun
  isValid := nofun

/-- A graph may grow under its problem. -/
theorem WellFormed.grow (wellFormed : problem.WellFormed graph) (step : graph.Step next) :
    problem.WellFormed next :=
  { wellFormed with
    leaf := fun id declared found => by
      have known := wellFormed.leaf id declared found
      rw [step.kind?_of_lt (Graph.lt_size_of_kind?_eq_some known), known]
    root_lt := fun root member => Nat.lt_of_lt_of_le (wellFormed.root_lt root member) step.size_le }

/-- Declaring a decision keeps a problem well formed if the name is free, the bounds are valid and
the graph holds the decision's leaf. -/
theorem WellFormed.declare (wellFormed : problem.WellFormed graph) {name : String}
    {bounds : Bounds K} {domain : Domain} {node : NodeIdx}
    (free : problem.isTaken .decisions name = false) (valid : bounds.isValid = true)
    (known : graph.kind? node = some (.leaf problem.decisions.length)) :
    WellFormed { problem with decisions := problem.decisions ++ [⟨name, bounds, domain, node⟩] }
      graph where
  names_nodup := names_nodup_of_concat wellFormed.names_nodup free (List.map_append ..)
    (by rintro (_ | _ | _) differs <;> first | rfl | contradiction)
  leaf id declared found := by
    rw [List.getElem?_append, List.getElem?_singleton] at found
    split at found
    · exact wellFormed.leaf id declared found
    · rename_i outside
      split at found
      · rename_i last
        cases found
        rwa [Nat.le_antisymm (Nat.sub_eq_zero_iff_le.mp last) (Nat.le_of_not_lt outside)]
      · cases found
  root_lt := wellFormed.root_lt
  isValid := by
    obtain ⟨decisions, constraints⟩ := List.forall_mem_append.mp wellFormed.isValid
    refine List.forall_mem_append.mpr ⟨?_, constraints⟩
    rw [List.map_append]
    exact List.forall_mem_append.mpr ⟨decisions, List.forall_mem_singleton.mpr valid⟩

/-- New bounds change neither the names nor the leaves of the variables. -/
theorem WellFormed.rebound (wellFormed : problem.WellFormed graph) {id : VariableId}
    {bounds : Bounds K} {declared : Variable K} (valid : bounds.isValid = true)
    (found : problem.decisions[id]? = some declared) :
    WellFormed { problem with decisions := problem.decisions.set id { declared with bounds } }
      graph where
  names_nodup kind := by
    have distinct := wellFormed.names_nodup kind
    obtain ⟨inside, rfl⟩ := List.getElem?_eq_some_iff.mp found
    cases kind with
    | decisions =>
        have kept : (problem.decisions.map Variable.name).set id problem.decisions[id].name =
            problem.decisions.map Variable.name := by
          rw [← List.map_set, List.set_getElem_self]
        rw [names, List.map_set]
        exact kept.symm ▸ distinct
    | constraints | objectives => exact distinct
  leaf query other known := by
    rw [List.getElem?_set] at known
    split at known
    · rename_i same
      split at known
      · cases known
        exact same ▸ wellFormed.leaf id declared found
      · cases known
    · exact wellFormed.leaf query other known
  root_lt := wellFormed.root_lt
  isValid := by
    obtain ⟨decisions, constraints⟩ := List.forall_mem_append.mp wellFormed.isValid
    refine List.forall_mem_append.mpr ⟨?_, constraints⟩
    rw [List.map_set]
    intro other member
    obtain old | rfl := List.mem_or_eq_of_mem_set member
    · exact decisions other old
    · exact valid

/-- Adding a constraint keeps a problem well formed if the name is free, the bounds are valid and
the graph holds the root. -/
theorem WellFormed.constrain (wellFormed : problem.WellFormed graph) {name : String}
    {root : NodeIdx} {bounds : Bounds K} (inside : root < graph.size)
    (valid : bounds.isValid = true) (free : problem.isTaken .constraints name = false) :
    WellFormed { problem with constraints := problem.constraints ++ [⟨name, root, bounds⟩] }
      graph where
  names_nodup := names_nodup_of_concat wellFormed.names_nodup free (List.map_append ..)
    (by rintro (_ | _ | _) differs <;> first | rfl | contradiction)
  leaf := wellFormed.leaf
  root_lt := by
    obtain ⟨constraints, objectives⟩ := List.forall_mem_append.mp wellFormed.root_lt
    refine List.forall_mem_append.mpr ⟨?_, objectives⟩
    rw [List.map_append]
    exact List.forall_mem_append.mpr ⟨constraints, List.forall_mem_singleton.mpr inside⟩
  isValid := by
    rw [allBounds, List.map_append, ← List.append_assoc]
    exact List.forall_mem_append.mpr ⟨wellFormed.isValid, List.forall_mem_singleton.mpr valid⟩

/-- Adding an objective keeps a problem well formed if the name is free and the graph holds the
root. -/
theorem WellFormed.target (wellFormed : problem.WellFormed graph) {name : String}
    {root : NodeIdx} {sense : Sense} (inside : root < graph.size)
    (free : problem.isTaken .objectives name = false) :
    WellFormed { problem with objectives := problem.objectives ++ [⟨name, root, sense⟩] }
      graph where
  names_nodup := names_nodup_of_concat wellFormed.names_nodup free (List.map_append ..)
    (by rintro (_ | _ | _) differs <;> first | rfl | contradiction)
  leaf := wellFormed.leaf
  root_lt := by
    rw [roots, List.map_append, ← List.append_assoc]
    exact List.forall_mem_append.mpr ⟨wellFormed.root_lt, List.forall_mem_singleton.mpr inside⟩
  isValid := wellFormed.isValid

/-- **A builder keeps a problem well-formed**, whether its steps succeed or fail. -/
theorem WellFormed.step (wellFormed : builder.problem.WellFormed builder.graph)
    (step : builder.Step rest) : rest.problem.WellFormed rest.graph := by
  cases step with
  | refuse => exact wellFormed
  | insert _ _ inserted => exact wellFormed.grow (.insert inserted)
  | declare _ free valid kind inserted =>
      refine (wellFormed.grow (.insert inserted)).declare free valid ?_
      obtain ⟨-, rfl, -⟩ := Graph.insert_eq_ok inserted
      rw [Graph.kind?_of_insert inserted, if_pos rfl, kind]
  | rebound valid found => exact wellFormed.rebound valid found
  | constrain inside valid free => exact wellFormed.constrain inside valid free
  | target inside free => exact wellFormed.target inside free

omit [Scalar K] in
/-- What a problem declares about its graph outlives every step that adds no node. -/
theorem Declares.grow (declares : problem.Declares graph) (step : graph.Step next)
    (same : graph.size = next.size) : problem.Declares next := by
  intro idx id known
  have inside : idx < graph.size := same ▸ Graph.lt_size_of_kind?_eq_some known
  exact declares idx id (step.kind?_of_lt inside ▸ known)

/-- A builder adds leaves of declared variables only. -/
theorem Declares.step (declares : builder.problem.Declares builder.graph)
    (step : builder.Step rest) : rest.problem.Declares rest.graph := by
  intro idx id known
  cases step with
  | refuse | constrain | target => exact declares idx id known
  | rebound => exact Nat.lt_of_lt_of_eq (declares idx id known) List.length_set.symm
  | insert _ declared inserted =>
      rw [Graph.kind?_of_insert inserted] at known
      split at known
      · exact Builder.lt_of_checkDeclared declared (Option.some.inj known)
      · exact declares idx id known
  | declare _ _ _ kind inserted =>
      rw [Graph.kind?_of_insert inserted] at known
      rw [List.length_append, List.length_singleton]
      split at known
      · cases kind.symm.trans (Option.some.inj known)
        exact Nat.lt_succ_self _
      · exact Nat.lt_succ_of_lt (declares idx id known)

end Builder

end Problem

namespace Model

variable [Scalar K] {model next : Model K} {request : Request K}

/-- What a request may have done to a problem and to its graph, which are both live
after it. -/
inductive PairStep (model : Model K) (id : ProblemId) (request : Request K) :
    Problem K → Graph K → Prop where
  | create (name : String) (key : GraphId) :
      PairStep model id request { id, name, graph := key } { id := key, problem := some id }
  | grow {problem : Problem K} {earlier graph : Graph K}
      (live : model.problems.get? id = some problem)
      (liveGraph : model.graphs.get? problem.graph = some earlier) (step : earlier.Step graph)
      (foreign : earlier = graph ∨ ∀ inner, request ≠ .build id inner) :
      PairStep model id request problem graph
  | build {builder rest : Builder K} (live : model.problems.get? id = some builder.problem)
      (liveGraph : model.graphs.get? builder.problem.graph = some builder.graph)
      (step : builder.Step rest) : PairStep model id request rest.problem rest.graph

/-- What a request does to a problem and its graph, for a problem that is live afterwards on a graph
of its own. -/
theorem Step.pair (step : model.Step request next) {id : ProblemId} {problem : Problem K}
    {graph : Graph K} (live : next.problems.get? id = some problem)
    (liveGraph : next.graphs.get? problem.graph = some graph) (own : graph.problem = some id) :
    model.PairStep id request problem graph := by
  cases step with
  | keep => exact .grow live liveGraph .keep (.inl rfl)
  | loseSlot announced _ =>
      exact .grow ((Arena.get?_claim announced id).symm.trans live) liveGraph .keep (.inl rfl)
  | @createProblem name _ key announced announcedGraph =>
      obtain ⟨rfl, rfl⟩ | ⟨differs, before⟩ := Arena.get?_occupy_cases announced live
      · rw [Arena.get?_occupy announcedGraph, if_pos rfl] at liveGraph
        cases liveGraph
        exact .create name key
      · obtain ⟨-, rfl⟩ | ⟨-, beforeGraph⟩ := Arena.get?_occupy_cases announcedGraph liveGraph
        · exact absurd (Option.some.inj own) differs
        · exact .grow before beforeGraph .keep (.inl rfl)
  | createGraph announced =>
      obtain ⟨-, rfl⟩ | ⟨-, beforeGraph⟩ := Arena.get?_occupy_cases announced liveGraph
      · cases own
      · exact .grow live beforeGraph .keep (.inl rfl)
  | removeProblem =>
      exact .grow (Arena.get?_of_get?_erase live) (Arena.get?_of_get?_erase liveGraph) .keep
        (.inl rfl)
  | removeGraph => exact .grow live (Arena.get?_of_get?_erase liveGraph) .keep (.inl rfl)
  | change direct _ found step =>
      obtain ⟨rfl, rfl⟩ | ⟨-, beforeGraph⟩ := Arena.get?_set_cases liveGraph
      · exact .grow live found step (.inr (direct id))
      · exact .grow live beforeGraph .keep (.inl rfl)
  | @build other inner old _ rest found foundGraph step =>
      obtain ⟨rfl, rfl⟩ | ⟨differs, before⟩ := Arena.get?_set_cases live
      · rw [Arena.get?_set, foundGraph, if_pos step.problem_eq.2.symm] at liveGraph
        cases liveGraph
        exact .build found foundGraph step
      · -- The other problem may hold the key of this graph if it has lost its own.
        have foreign (change : Builder.Request K) :
            Request.build other inner ≠ .build id change := by
          rintro ⟨⟩
          exact differs rfl
        obtain ⟨same, rfl⟩ | ⟨-, beforeGraph⟩ := Arena.get?_set_cases liveGraph
        · exact .grow before (same ▸ foundGraph) step.graph_step (.inr foreign)
        · exact .grow before beforeGraph .keep (.inl rfl)

/-- Whatever has been added to the graph of a problem has been added by the builder of
the problem. -/
def OnlyBuilt (uids : UidSource) (requests : List (Request K)) (id : ProblemId)
    (key : GraphId) : Prop :=
  ∀ before request after, requests = before ++ request :: after → ∀ graph next,
    (session { uids } before).graphs.get? key = some graph →
    (session { uids } (before ++ [request])).graphs.get? key = some next →
    graph.size ≠ next.size → ∃ inner, request = .build id inner

/-- A graph that only builders change in the whole of a session is changed by builders only in the
front of it. -/
theorem OnlyBuilt.of_append {uids : UidSource} {requests later : List (Request K)}
    {id : ProblemId} {key : GraphId} (built : OnlyBuilt uids (requests ++ later) id key) :
    OnlyBuilt uids requests id key := by
  rintro before request after rfl
  exact built before request (after ++ later) (by rw [List.append_assoc, List.cons_append])

/-- A problem that is created first, and then built by its builder, is only built. -/
theorem onlyBuilt_of_builds {uids : UidSource} {name : String} {id : ProblemId}
    {later : List (Request K)} (builds : ∀ request ∈ later, ∃ inner, request = .build id inner)
    (key : GraphId) : OnlyBuilt uids (.createProblem name :: later) id key := by
  rintro before request after split earlier next live - -
  obtain - | ⟨first, others⟩ := before
  · cases live
  · cases split
    exact builds request (List.mem_append_right others List.mem_cons_self)

/-- A problem keeps its promises as long as it and its graph are live. -/
theorem wellFormed_session {uids : UidSource} {requests : List (Request K)} {id : ProblemId}
    {problem : Problem K} {graph : Graph K}
    (live : (session { uids } requests).problems.get? id = some problem)
    (liveGraph : (session { uids } requests).graphs.get? problem.graph = some graph)
    (own : graph.problem = some id) :
    problem.WellFormed graph ∧
      (OnlyBuilt uids requests id problem.graph → problem.Declares graph) := by
  induction requests using List.reverseRecOn generalizing problem graph with
  | nil => cases live
  | append_singleton requests request ih =>
      have step := step_perform (session { uids } requests) request
      rw [← session_concat] at step
      cases step.pair live liveGraph own with
      | create name key => exact ⟨Problem.wellFormed_empty id name key _, fun _ => nofun⟩
      | @grow _ earlier _ before beforeGraph step foreign =>
          obtain ⟨wellFormed, declares⟩ := ih before beforeGraph (step.owner_eq.2 ▸ own)
          refine ⟨wellFormed.grow step, fun built => ?_⟩
          refine (declares built.of_append).grow step ?_
          -- A graph that has grown has taken a node from another hand than the builder's.
          rcases foreign with rfl | foreign
          · rfl
          · by_contra differs
            obtain ⟨inner, same⟩ :=
              built requests request [] rfl earlier graph beforeGraph liveGraph differs
            exact foreign inner same
      | @build builder rest before beforeGraph step =>
          obtain ⟨wellFormed, declares⟩ := ih before beforeGraph (step.graph_step.owner_eq.2 ▸ own)
          refine ⟨wellFormed.step step, fun built => (declares ?_).step step⟩
          exact step.problem_eq.2 ▸ built.of_append

/-- **Problems stay well-formed.** After any requests of an empty model, failing ones
included, let a problem and its graph be live. The graph is the problem's own, as it
always is when no slot of a graph has been freed `2 ^ 32` times. Then the names of each
kind are distinct, a name leads to the variable that carries it, the node of every
variable is the leaf of that variable, the roots of the constraints and objectives lie in
the graph, and all bounds are in order. If nodes have been added to the graph by the
builder of the problem only, then all leaves in it are those of declared variables. -/
theorem session_wellFormed {uids : UidSource} {requests : List (Request Float)}
    {model : Model Float} (reached : session { uids } requests = model) {id : ProblemId}
    {problem : Problem Float} {graph : Graph Float}
    (live : model.problems.get? id = some problem)
    (liveGraph : model.graphs.get? problem.graph = some graph)
    (own : graph.problem = some id ∨ IsYoung { uids } requests) :
    (∀ kind, (problem.names kind).Nodup) ∧
    (∀ name var, problem.variableByName? name = some var ↔
      ∃ declared, problem.decisions[var]? = some declared ∧ declared.name = name) ∧
    (∀ var declared, problem.decisions[var]? = some declared →
      ∃ node, graph.get? declared.node = some node ∧ node.kind = .leaf var) ∧
    (∀ root ∈ problem.roots, ∃ node, graph.get? root = some node) ∧
    (∀ bounds ∈ problem.allBounds, bounds.Ordered) ∧
    (OnlyBuilt uids requests id problem.graph →
      ∀ idx node var, graph.get? idx = some node → node.kind = .leaf var →
        ∃ declared, problem.decisions[var]? = some declared) := by
  subst reached
  have own : graph.problem = some id :=
    own.elim (fun own => own) fun young => (owned_session young).own id problem graph live liveGraph
  obtain ⟨wellFormed, declares⟩ := wellFormed_session live liveGraph own
  refine ⟨wellFormed.names_nodup,
    fun name var => Problem.variableByName?_eq_some_iff (wellFormed.names_nodup .decisions),
    fun var declared found => ?_,
    fun root member => Graph.get?_eq_some_of_lt (wellFormed.root_lt root member),
    fun bounds member => Bounds.isValid_iff_ordered.mp (wellFormed.isValid bounds member),
    fun built idx node var held leaf => ?_⟩
  · exact Option.map_eq_some_iff.mp (wellFormed.leaf var declared found)
  · have inside := declares built idx var (by rw [Graph.kind?_eq held, leaf])
    exact ⟨_, List.getElem?_eq_getElem inside⟩

/-- A binary variable is declared, and another one of its name is refused. -/
def knapsack : List (Request Float) :=
  [.createProblem "p",
    .build ⟨0, 0⟩ (.addVariable "x" {} .binary),
    .build ⟨0, 0⟩ (.addVariable "x" {} .real),
    .build ⟨0, 0⟩ (.addConstraint "c" 0 ⟨none, some 1.0⟩),
    .build ⟨0, 0⟩ (.addObjective "o" 0 .maximize)]

theorem session_wellFormed_knapsack :
    ∃ problem graph, (session {} knapsack).problems.get? ⟨0, 0⟩ = some problem ∧
      (session {} knapsack).graphs.get? problem.graph = some graph ∧
      problem.variableByName? "x" = some 0 ∧
      (∃ node, graph.get? 0 = some node ∧ node.kind = .leaf 0) ∧
      (∀ bounds ∈ problem.allBounds, bounds.Ordered) ∧
      ∀ idx node var, graph.get? idx = some node → node.kind = .leaf var →
        ∃ declared, problem.decisions[var]? = some declared := by
  have live : ∃ problem graph, (session {} knapsack).problems.get? ⟨0, 0⟩ = some problem ∧
      (session {} knapsack).graphs.get? problem.graph = some graph ∧
      graph.problem = some ⟨0, 0⟩ ∧
      problem.decisions = [⟨"x", ⟨some 0, some 1⟩, .binary, 0⟩] := ⟨_, _, rfl, rfl, rfl, rfl⟩
  obtain ⟨problem, graph, live, liveGraph, own, decisions⟩ := live
  have built : OnlyBuilt {} knapsack ⟨0, 0⟩ problem.graph :=
    onlyBuilt_of_builds (by simp) problem.graph
  obtain ⟨-, byName, leaf, -, ordered, declared⟩ :=
    session_wellFormed rfl live liveGraph (.inl own)
  refine ⟨problem, graph, live, liveGraph, (byName "x" 0).mpr ?_, ?_, ordered, declared built⟩
  · exact ⟨_, by rw [decisions]; rfl, rfl⟩
  · exact leaf 0 ⟨"x", ⟨some 0, some 1⟩, .binary, 0⟩ (by rw [decisions]; rfl)

end Model

end MixedInteger
