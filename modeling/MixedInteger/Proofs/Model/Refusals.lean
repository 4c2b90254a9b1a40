import MixedInteger.Proofs.Model.Building

/-! # Refusals of a builder

A request of a builder that fails changes neither the problem nor the graph
(`Builder.failed_perform`). It may have used up an identity, because a node has one
before the graph is asked to take it: the graph refuses a new node when it is full, or
when a child of the node is not there (`Graph.Refuses`). A request that is turned down
earlier costs nothing, as long as there are identities left.
-/

namespace MixedInteger

variable {K : Type}

namespace UidSource

variable {source : UidSource}

/-- Whether the largest word, which is never issued, comes next. -/
def IsExhausted (source : UidSource) : Prop := source.upcoming = 18446744073709551615

/-- An exhausted source refuses, and its counter moves on all the same. -/
theorem issue_of_isExhausted (exhausted : source.IsExhausted) :
    source.issue = (.error .uidsExhausted, source.advance) := by
  unfold IsExhausted at exhausted
  rw [issue, if_pos exhausted]

/-- A source that is not exhausted issues what comes next. -/
theorem issue_of_remaining (remaining : ¬ source.IsExhausted) :
    source.issue = (.ok ⟨source.upcoming⟩, source.advance) := by
  unfold IsExhausted at remaining
  rw [issue, if_neg remaining]

/-- What a failure takes from a source that has identities left: one of them if it is
wasted, or nothing. -/
def Loses (source : UidSource) (wasted : Prop) (after : UidSource) : Prop :=
  ¬ source.IsExhausted → (wasted → after = source.advance) ∧ (¬ wasted → after = source)

/-- A failure that wastes nothing may leave the source as it was. -/
theorem loses_nothing {wasted : Prop} (spared : ¬ wasted) : source.Loses wasted source :=
  fun _ => ⟨fun lost => (spared lost).elim, fun _ => rfl⟩

/-- A failure that wastes an identity leaves the source one further. -/
theorem loses_one {wasted : Prop} (lost : wasted) : source.Loses wasted source.advance :=
  fun _ => ⟨fun _ => rfl, fun spared => (spared lost).elim⟩

/-- Nothing is promised of an exhausted source. -/
theorem loses_of_isExhausted {wasted : Prop} (exhausted : source.IsExhausted)
    (after : UidSource) : source.Loses wasted after :=
  fun remaining => (remaining exhausted).elim

end UidSource

namespace Node

variable {source : UidSource} {kind : NodeKind K}

/-- A node with the wrong number of children costs no identity. -/
theorem create_of_wrongArity {broken : Violation} (wrong : kind.checkArity = .error broken) :
    create source kind = (.error broken, source) := by
  rw [create, wrong]

/-- An exhausted source gives no identity to a node. -/
theorem create_of_isExhausted (formed : kind.checkArity = .ok ())
    (exhausted : source.IsExhausted) :
    create source kind = (.error .uidsExhausted, source.advance) := by
  rw [create, formed, UidSource.issue_of_isExhausted exhausted]
  rfl

/-- A node with the right number of children gets the next identity. -/
theorem create_of_remaining (formed : kind.checkArity = .ok ())
    (remaining : ¬ source.IsExhausted) :
    create source kind = (.ok { uid := ⟨source.upcoming⟩, kind }, source.advance) := by
  rw [create, formed, UidSource.issue_of_remaining remaining]
  rfl

end Node

namespace Graph

variable {graph next : Graph K} {kind : NodeKind K}

/-- Whether every index is taken. -/
def IsFull (graph : Graph K) : Prop := largestWord < graph.size

/-- Whether a graph has no place for a new node, or not all of its children. -/
def Refuses (graph : Graph K) (kind : NodeKind K) : Prop :=
  graph.IsFull ∨ ∃ child ∈ kind.children, graph.size ≤ child

/-- A new node is taken in unless the graph refuses it. -/
theorem exists_insert_eq_ok (measured : graph.depths.size = graph.size) (uid : Uid)
    (accepted : ¬ graph.Refuses kind) :
    ∃ next, graph.insert { uid, kind } = (.ok graph.size, next) := by
  obtain ⟨room, held⟩ := not_or.mp accepted
  have inside : ∀ child ∈ kind.children, child < graph.size := by
    intro child member
    exact Nat.lt_of_not_le fun outside => held ⟨child, member, outside⟩
  obtain ⟨depth, known⟩ : ∃ depth, graph.depthOf { uid, kind } = .ok depth :=
    exists_depthOf_eq_ok measured inside
  have fits : Position.graphNode.check graph.size = .ok graph.size :=
    if_pos (Nat.le_of_not_lt room)
  have claims : graph.checkClaims { uid, kind } = .ok () := rfl
  exact ⟨_, by simp only [insert, claims, fits, known]; rfl⟩

/-- A graph refuses a new node exactly when it is full or misses a child. -/
theorem insert_new_eq_error_iff (measured : graph.depths.size = graph.size) (uid : Uid) :
    (∃ broken, graph.insert { uid, kind } = (.error broken, graph)) ↔ graph.Refuses kind := by
  constructor
  · rintro ⟨broken, refused⟩
    by_contra accepted
    obtain ⟨next, inserted⟩ := exists_insert_eq_ok measured uid accepted
    cases refused.symm.trans inserted
  · intro refuses
    cases answered : graph.insert { uid, kind } with
    | mk answer next =>
        cases answer with
        | error broken =>
            cases insert_eq_error answered
            exact ⟨broken, rfl⟩
        | ok idx =>
            obtain ⟨-, -, fits, depth, known, -⟩ := insert_eq_ok answered
            obtain full | ⟨child, member, missing⟩ := refuses
            · exact absurd fits (Nat.not_le_of_lt full)
            · exact absurd (child_lt_size_of_depthOf known member) (Nat.not_lt_of_le missing)

end Graph

namespace Builder

variable {builder next : Builder K} {fault : Fault (ModelError K)}

/-- What is left of a builder by a request that fails. -/
structure Failed (builder : Builder K) (wasted : Prop) (next : Builder K) : Prop where
  problem_eq : next.problem = builder.problem
  graph_eq : next.graph = builder.graph
  uids : builder.uids.Loses wasted next.uids

/-- A request that is turned down at once leaves everything. -/
theorem failed_self {wasted : Prop} (spared : ¬ wasted) : builder.Failed wasted builder :=
  ⟨rfl, rfl, UidSource.loses_nothing spared⟩

/-- Whether an identity is wasted may be said in other words. -/
theorem Failed.congr {wasted same : Prop} (failed : builder.Failed wasted next)
    (iff : wasted ↔ same) : builder.Failed same next :=
  propext iff ▸ failed

/-- A node that fails to be attached was not declared, or was refused by the graph, and nothing has
changed. -/
theorem insertVertex_eq_of_error {node : Node K}
    (failed : (insertVertex node builder).1 = .error fault) :
    (insertVertex node builder).2 = builder ∧
      ((∃ broken, builder.checkDeclared node.kind = .error broken) ∨
        ∃ broken, builder.graph.insert node = (.error broken, builder.graph)) := by
  unfold insertVertex at failed ⊢
  cases declared : builder.checkDeclared node.kind with
  | error broken => exact ⟨rfl, .inl ⟨broken, rfl⟩⟩
  | ok _ =>
      obtain ⟨idx, graph, -, taken⟩ | ⟨broken, refused, unchanged⟩ := offer_cases builder node
      · rw [declared] at failed
        dsimp only at failed
        rw [taken] at failed
        cases failed
      · exact ⟨congrArg Prod.snd unchanged, .inr ⟨broken, refused⟩⟩

section Created

variable (measured : builder.graph.depths.size = builder.graph.size)
include measured

/-- A new node that fails to be inserted costs an identity if it was created. -/
theorem failed_insertNew {kind : NodeKind K} (unnamed : kind.leafId? = none)
    (failed : (insertNew kind builder).1 = .error fault) :
    builder.Failed (kind.checkArity = .ok () ∧ builder.graph.Refuses kind)
      (insertNew kind builder).2 := by
  unfold insertNew at failed ⊢
  cases formed : kind.checkArity with
  | error broken =>
      rw [Node.create_of_wrongArity formed]
      exact failed_self fun wasted => nomatch wasted.1
  | ok _ =>
      by_cases exhausted : builder.uids.IsExhausted
      · rw [Node.create_of_isExhausted formed exhausted]
        exact ⟨rfl, rfl, UidSource.loses_of_isExhausted exhausted _⟩
      · rw [Node.create_of_remaining formed exhausted] at failed ⊢
        dsimp only at failed ⊢
        obtain ⟨same, ⟨broken, undeclared⟩ | refused⟩ := insertVertex_eq_of_error failed
        · simp only [checkDeclared, unnamed] at undeclared
          cases undeclared
        · have refuses := (Graph.insert_new_eq_error_iff measured _).mp refused
          rw [same]
          exact ⟨rfl, rfl, UidSource.loses_one ⟨rfl, refuses⟩⟩

/-- The leaf of a variable is refused by a full graph only. -/
theorem failed_insertLeaf {id : VariableId}
    (failed : (insertLeaf id builder).1 = .error fault) :
    builder.Failed builder.graph.IsFull (insertLeaf id builder).2 := by
  have formed : (NodeKind.leaf id : NodeKind K).checkArity = .ok () := rfl
  unfold insertLeaf at failed ⊢
  by_cases exhausted : builder.uids.IsExhausted
  · rw [Node.create_of_isExhausted formed exhausted]
    exact ⟨rfl, rfl, UidSource.loses_of_isExhausted exhausted _⟩
  · rw [Node.create_of_remaining formed exhausted] at failed ⊢
    dsimp only at failed ⊢
    obtain ⟨idx, graph, -, taken⟩ | ⟨broken, refused, unchanged⟩ :=
      offer_cases { builder with uids := builder.uids.advance }
        { uid := ⟨builder.uids.upcoming⟩, kind := .leaf id }
    · rw [taken] at failed
      cases failed
    · rw [unchanged]
      obtain full | ⟨child, absurd, -⟩ :=
        (Graph.insert_new_eq_error_iff measured _).mp ⟨broken, refused⟩
      · exact ⟨rfl, rfl, UidSource.loses_one full⟩
      · cases absurd

end Created

/-- A constant is attached as long as there is an identity and an index for it. -/
theorem constant_eq_ok (builder : Builder K)
    (measured : builder.graph.depths.size = builder.graph.size)
    (remaining : ¬ builder.uids.IsExhausted) (room : ¬ builder.graph.IsFull) (value : K) :
    ∃ graph, graph.size = builder.graph.size + 1 ∧
      constant value builder =
        (.ok builder.graph.size, { builder with graph, uids := builder.uids.advance }) := by
  have accepted : ¬ builder.graph.Refuses (.constant value) := by
    rintro (full | ⟨child, absurd, -⟩)
    · exact room full
    · cases absurd
  obtain ⟨graph, inserted⟩ :=
    Graph.exists_insert_eq_ok measured ⟨builder.uids.upcoming⟩ accepted
  refine ⟨graph, Graph.size_of_insert inserted, ?_⟩
  have formed : (NodeKind.constant value).checkArity = .ok () := rfl
  simp only [constant, insertNew, Node.create_of_remaining formed remaining, insertVertex,
    checkDeclared, NodeKind.leafId?, offer, inserted]
  rfl

/-- A full graph refuses a constant that has its identity already. -/
theorem constant_of_isFull (builder : Builder K) (remaining : ¬ builder.uids.IsExhausted)
    (full : builder.graph.IsFull) (value : K) : constant value builder =
      (.error (.violation (.positionTooLarge .graphNode)),
        { builder with uids := builder.uids.advance }) := by
  have formed : (NodeKind.constant value).checkArity = .ok () := rfl
  have claims : builder.graph.checkClaims
      { uid := ⟨builder.uids.upcoming⟩, kind := .constant value } = .ok () := rfl
  have refused : Position.graphNode.check builder.graph.size =
      .error (.positionTooLarge .graphNode) := if_neg (Nat.not_le_of_lt full)
  simp only [constant, insertNew, Node.create_of_remaining formed remaining, insertVertex,
    checkDeclared, NodeKind.leafId?, offer, Graph.insert, claims, refused]
  rfl

variable [Scalar K]

/-- Whether a request gets an identity for a node that the graph then refuses. -/
def Request.WastesUid (builder : Builder K) : Request K → Prop
  | addVariable name bounds domain =>
      (∃ id, builder.checkVariable name (bounds.withDefaults domain) = .ok id) ∧
        builder.graph.IsFull
  | constant _ => builder.graph.IsFull
  | operator op children =>
      op.arity.accepts children.length = true ∧
        (builder.graph.IsFull ∨ ∃ child ∈ children, builder.graph.size ≤ child)
  | _ => False

/-- A variable that fails to be added has cost an identity if its checks were passed and the graph
is full. -/
theorem failed_addVariable (measured : builder.graph.depths.size = builder.graph.size)
    {name : String} {bounds : Bounds K} {domain : Domain}
    (failed : (addVariable name bounds domain builder).1 = .error fault) :
    builder.Failed ((Request.addVariable name bounds domain).WastesUid builder)
      (addVariable name bounds domain builder).2 := by
  unfold addVariable at failed ⊢
  cases checked : builder.checkVariable name (bounds.withDefaults domain) with
  | error refused =>
      simp only [checked]
      exact failed_self fun ⟨⟨id, accepted⟩, _⟩ => nomatch checked.symm.trans accepted
  | ok id =>
      simp only [checked] at failed ⊢
      cases inserted : insertLeaf id builder with
      | mk answer rest =>
          cases answer with
          | ok node =>
              rw [inserted] at failed
              cases failed
          | error refused =>
              have left := failed_insertLeaf measured (congrArg Prod.fst inserted)
              rw [inserted] at left
              exact left.congr ⟨fun full => ⟨⟨id, checked⟩, full⟩, And.right⟩

/-- A request that fails leaves the problem and the graph as they were, and it costs an
identity exactly when it wastes one. -/
theorem failed_perform (measured : builder.graph.depths.size = builder.graph.size)
    {request : Request K} (failed : (request.perform builder).1 = .error fault) :
    builder.Failed (request.WastesUid builder) (request.perform builder).2 := by
  cases request with
  | addVariable name bounds domain =>
      exact failed_addVariable measured (Outcome.eq_error_of_map failed)
  | constant value =>
      refine (failed_insertNew measured rfl (Outcome.eq_error_of_map failed)).congr ⟨?_, ?_⟩
      · rintro ⟨-, full | ⟨child, absurd, -⟩⟩
        · exact full
        · cases absurd
      · exact fun full => ⟨rfl, .inl full⟩
  | operator op children =>
      refine (failed_insertNew measured rfl (Outcome.eq_error_of_map failed)).congr ?_
      simp only [NodeKind.checkArity, Request.WastesUid, Graph.Refuses, NodeKind.children]
      split
      · simp [*]
      · simp [*]
  | insertVertex node =>
      have same := (insertVertex_eq_of_error (Outcome.eq_error_of_map failed)).1
      simp only [Request.perform, silent, same]
      exact failed_self id
  | setBounds position bounds =>
      simp only [Request.perform, setBounds] at failed ⊢
      split at failed
      · exact failed_self id
      · split at failed
        · exact failed_self id
        · cases failed
  | addConstraint name root bounds =>
      have failed := Outcome.eq_error_of_map failed
      simp only [Request.perform, silent, addConstraint] at failed ⊢
      split at failed
      · exact failed_self id
      · cases failed
  | addObjective name root sense =>
      have failed := Outcome.eq_error_of_map failed
      simp only [Request.perform, silent, addObjective] at failed ⊢
      split at failed
      · exact failed_self id
      · cases failed

end Builder

end MixedInteger
