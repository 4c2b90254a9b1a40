import MixedInteger.Model.Builder
import MixedInteger.Proofs.Expression.Growth

/-! # Requests of a builder

What a caller may ask of a builder, and what the request leaves of the problem and
of its graph (`Builder.step_perform`): a new node, a new entry in one of the lists of
the problem, new bounds of a variable, or nothing but identities that have been used
up.
-/

namespace MixedInteger

variable {K : Type}

namespace Problem

/-- A name that passes its check is free. -/
theorem isTaken_of_checkName {problem : Problem K} {kind : Named} {name : String}
    (checked : problem.checkName kind name = .ok ()) : problem.isTaken kind name = false := by
  unfold checkName at checked
  split at checked
  · cases checked
  · rename_i free
    exact Bool.eq_false_iff.mpr free

end Problem

namespace Bounds

/-- Bounds that pass their check are valid. -/
theorem isValid_of_check [Scalar K] {bounds : Bounds K} (checked : bounds.check = .ok ()) :
    bounds.isValid = true := by
  unfold check at checked
  split at checked
  · assumption
  · cases checked

end Bounds

namespace Builder

/-- What a caller may ask of a builder. -/
inductive Request (K : Type) where
  | addVariable (name : String) (bounds : Bounds K) (domain : Domain)
  | setBounds (id : VariableId) (bounds : Bounds K)
  | insertVertex (node : Node K)
  | constant (value : K)
  | operator (op : Operator K) (children : List NodeIdx)
  | addConstraint (name : String) (root : NodeIdx) (bounds : Bounds K)
  | addObjective (name : String) (root : NodeIdx) (sense : Sense)

/-- A step without the value that it answers with. -/
def silent {α : Type} (step : BuildStep K α) : BuildStep K Unit := fun builder =>
  ((step builder).1.map fun _ => (), (step builder).2)

/-- The step that answers a request. -/
def Request.perform [Scalar K] : Request K → BuildStep K Unit
  | addVariable name bounds domain => silent (Builder.addVariable name bounds domain)
  | setBounds id bounds => Builder.setBounds id bounds
  | insertVertex node => silent (Builder.insertVertex node)
  | constant value => silent (Builder.constant value)
  | operator op children => silent (Builder.operator op children)
  | addConstraint name root bounds => silent (Builder.addConstraint name root bounds)
  | addObjective name root sense => silent (Builder.addObjective name root sense)

variable [Scalar K] {builder next : Builder K}

/-- What may become of a builder in one step. -/
inductive Step (builder : Builder K) : Builder K → Prop where
  | refuse (uids : UidSource) : Step builder { builder with uids }
  | insert {node : Node K} {idx : NodeIdx} {graph : Graph K} (uids : UidSource)
      (declared : builder.checkDeclared node.kind = .ok ())
      (inserted : builder.graph.insert node = (.ok idx, graph)) :
      Step builder { builder with graph, uids }
  | declare {name : String} {bounds : Bounds K} {domain : Domain} {node : Node K} {idx : NodeIdx}
      {graph : Graph K} (uids : UidSource)
      (free : builder.problem.isTaken .decisions name = false) (valid : bounds.isValid = true)
      (kind : node.kind = .leaf builder.problem.decisions.length)
      (inserted : builder.graph.insert node = (.ok idx, graph)) :
      Step builder
        { problem := { builder.problem with
            decisions := builder.problem.decisions ++ [⟨name, bounds, domain, idx⟩] }
          graph, uids }
  | rebound {id : VariableId} {bounds : Bounds K} {declared : Variable K}
      (valid : bounds.isValid = true) (found : builder.problem.decisions[id]? = some declared) :
      Step builder { builder with
        problem := { builder.problem with
          decisions := builder.problem.decisions.set id { declared with bounds } } }
  | constrain {name : String} {root : NodeIdx} {bounds : Bounds K}
      (inside : root < builder.graph.size) (valid : bounds.isValid = true)
      (free : builder.problem.isTaken .constraints name = false) :
      Step builder { builder with
        problem := { builder.problem with
          constraints := builder.problem.constraints ++ [⟨name, root, bounds⟩] } }
  | target {name : String} {root : NodeIdx} {sense : Sense}
      (inside : root < builder.graph.size)
      (free : builder.problem.isTaken .objectives name = false) :
      Step builder { builder with
        problem := { builder.problem with
          objectives := builder.problem.objectives ++ [⟨name, root, sense⟩] } }

/-! ## What the checks say -/

omit [Scalar K] in
/-- A leaf that passes its check names a declared variable. -/
theorem lt_of_checkDeclared {kind : NodeKind K} {id : VariableId}
    (checked : builder.checkDeclared kind = .ok ()) (leaf : kind = .leaf id) :
    id < builder.problem.decisions.length := by
  subst leaf
  simp only [checkDeclared, NodeKind.leafId?] at checked
  split at checked
  · assumption
  · cases checked

omit [Scalar K] in
/-- A root that passes its check is in the graph. -/
theorem lt_size_of_checkRoot {root : NodeIdx} (checked : builder.checkRoot root = .ok ()) :
    root < builder.graph.size := by
  unfold checkRoot at checked
  split at checked
  · assumption
  · cases checked

/-- A variable that passes its checks has a free name and valid bounds, and comes last. -/
theorem checkVariable_eq_ok {name : String} {bounds : Bounds K} {id : VariableId}
    (checked : builder.checkVariable name bounds = .ok id) :
    builder.problem.isTaken .decisions name = false ∧ bounds.isValid = true ∧
      id = builder.problem.decisions.length := by
  obtain ⟨⟨⟩, named, checked⟩ := Outcome.bind_eq_ok_iff.mp checked
  obtain ⟨⟨⟩, bounded, checked⟩ := Outcome.bind_eq_ok_iff.mp checked
  refine ⟨Problem.isTaken_of_checkName (Fault.report_eq_ok_iff.mp named),
    Bounds.isValid_of_check (Fault.report_eq_ok_iff.mp bounded), ?_⟩
  unfold Position.check at checked
  split at checked
  · cases checked
    rfl
  · cases checked

/-- A constraint that passes its checks has its root in the graph, valid bounds and a free name. -/
theorem checkConstraint_eq_ok {name : String} {root : NodeIdx} {bounds : Bounds K}
    (checked : builder.checkConstraint name root bounds = .ok ()) :
    root < builder.graph.size ∧ bounds.isValid = true ∧
      builder.problem.isTaken .constraints name = false := by
  obtain ⟨⟨⟩, rooted, checked⟩ := Outcome.bind_eq_ok_iff.mp checked
  obtain ⟨⟨⟩, bounded, named⟩ := Outcome.bind_eq_ok_iff.mp checked
  exact ⟨lt_size_of_checkRoot rooted, Bounds.isValid_of_check bounded, Problem.isTaken_of_checkName named⟩

omit [Scalar K] in
/-- An objective that passes its checks has its root in the graph and a free name. -/
theorem checkObjective_eq_ok {name : String} {root : NodeIdx}
    (checked : builder.checkObjective name root = .ok ()) :
    root < builder.graph.size ∧ builder.problem.isTaken .objectives name = false := by
  obtain ⟨⟨⟩, rooted, named⟩ := Outcome.bind_eq_ok_iff.mp checked
  exact ⟨lt_size_of_checkRoot rooted, Problem.isTaken_of_checkName named⟩

/-! ## What the requests leave -/

omit [Scalar K] in
/-- A node that is offered to the graph is taken, or nothing happens. -/
theorem offer_cases (builder : Builder K) (node : Node K) :
    (∃ idx graph, builder.graph.insert node = (.ok idx, graph) ∧
      offer node builder = (.ok idx, { builder with graph })) ∨
    ∃ broken, builder.graph.insert node = (.error broken, builder.graph) ∧
      offer node builder = (.error (.violation broken), builder) := by
  unfold offer
  cases inserted : builder.graph.insert node with
  | mk answer graph =>
      cases answer with
      | ok idx => exact .inl ⟨idx, graph, rfl, rfl⟩
      | error broken =>
          cases Graph.insert_eq_error inserted
          exact .inr ⟨broken, rfl, rfl⟩

/-- Attaching a node inserts it into the graph, or changes nothing. -/
theorem step_insertVertex (builder : Builder K) (node : Node K) (uids : UidSource) :
    builder.Step (insertVertex node { builder with uids }).2 := by
  unfold insertVertex
  split
  · exact .refuse uids
  · rename_i declared
    obtain ⟨idx, graph, inserted, done⟩ | ⟨broken, -, refused⟩ :=
      offer_cases { builder with uids } node
    · rw [done]
      exact .insert uids declared inserted
    · rw [refused]
      exact .refuse uids

/-- Attaching a new node inserts it into the graph, or at most uses up an identity. -/
theorem step_insertNew (builder : Builder K) (kind : NodeKind K) :
    builder.Step (insertNew kind builder).2 := by
  unfold insertNew
  split
  · exact step_insertVertex builder _ _
  · exact .refuse _

omit [Scalar K] in
/-- The leaf of a variable is attached, or nothing but an identity is used up. -/
theorem insertLeaf_cases (builder : Builder K) (id : VariableId) :
    (∃ (node : Node K) (idx : NodeIdx) (graph : Graph K) (uids : UidSource),
      node.kind = .leaf id ∧ builder.graph.insert node = (.ok idx, graph) ∧
        insertLeaf id builder = (.ok idx, { builder with graph, uids })) ∨
    ∃ fault uids, insertLeaf id builder = (.error fault, { builder with uids }) := by
  unfold insertLeaf
  split
  · rename_i node uids created
    obtain ⟨idx, graph, inserted, done⟩ | ⟨broken, -, refused⟩ :=
      offer_cases { builder with uids } node
    · obtain ⟨-, uid, -, rfl⟩ := Node.create_eq_ok (congrArg Prod.fst created)
      exact .inl ⟨_, idx, graph, uids, rfl, inserted, done⟩
    · exact .inr ⟨_, uids, refused⟩
  · exact .inr ⟨_, _, rfl⟩

/-- Adding a variable declares it with its leaf, or at most uses up an identity. -/
theorem step_addVariable (builder : Builder K) (name : String) (bounds : Bounds K)
    (domain : Domain) : builder.Step (addVariable name bounds domain builder).2 := by
  unfold addVariable
  dsimp only
  split
  · exact .refuse builder.uids
  · rename_i id checked
    obtain ⟨free, valid, rfl⟩ := checkVariable_eq_ok checked
    obtain ⟨node, idx, graph, uids, kind, inserted, done⟩ | ⟨fault, uids, refused⟩ :=
      insertLeaf_cases builder builder.problem.decisions.length
    · rw [done]
      exact .declare uids free valid kind inserted
    · rw [refused]
      exact .refuse uids

/-- Setting bounds changes those of one variable, or nothing. -/
theorem step_setBounds (builder : Builder K) (id : VariableId) (bounds : Bounds K) :
    builder.Step (setBounds id bounds builder).2 := by
  unfold setBounds
  split
  · exact .refuse builder.uids
  · rename_i checked
    split
    · exact .refuse builder.uids
    · rename_i declared found
      exact .rebound (Bounds.isValid_of_check checked) found

/-- **What a request leaves of a builder.** -/
theorem step_perform (builder : Builder K) (request : Request K) :
    builder.Step (request.perform builder).2 := by
  cases request with
  | addVariable name bounds domain => exact step_addVariable builder name bounds domain
  | setBounds id bounds => exact step_setBounds builder id bounds
  | insertVertex node => exact step_insertVertex builder node builder.uids
  | constant value => exact step_insertNew builder _
  | operator op children => exact step_insertNew builder _
  | addConstraint name root bounds =>
      simp only [Request.perform, silent, addConstraint]
      split
      · exact .refuse builder.uids
      · rename_i checked
        obtain ⟨inside, valid, free⟩ := checkConstraint_eq_ok checked
        exact .constrain inside valid free
  | addObjective name root sense =>
      simp only [Request.perform, silent, addObjective]
      split
      · exact .refuse builder.uids
      · rename_i checked
        obtain ⟨inside, free⟩ := checkObjective_eq_ok checked
        exact .target inside free

/-- A problem keeps its key and the key of its graph. -/
theorem Step.problem_eq (step : builder.Step next) :
    next.problem.id = builder.problem.id ∧ next.problem.graph = builder.problem.graph := by
  cases step <;> exact ⟨rfl, rfl⟩

/-- A step of a builder is a step of its graph. -/
theorem Step.graph_step (step : builder.Step next) : builder.graph.Step next.graph := by
  cases step with
  | insert _ _ inserted => exact .insert inserted
  | declare _ _ _ _ inserted => exact .insert inserted
  | refuse | rebound | constrain | target => exact .keep

end Builder

end MixedInteger
