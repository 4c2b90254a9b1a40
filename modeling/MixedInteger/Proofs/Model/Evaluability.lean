import MixedInteger.Proofs.Expression.CarriedValue
import MixedInteger.Proofs.Model.Declarations
import MixedInteger.Proofs.Model.OwnGraph

/-! # Evaluability

A problem that is built by its builder can be evaluated at every point that has a value for
each variable. The builder declares every variable before there is a leaf of it
(`Problem.Declares`), it adds constraints and objectives on roots in the graph only
(`Problem.WellFormed`), and the nodes of the graph have the children that their operators
take and stand behind them (`Model.graphsWellFormed_session`). So no evaluation breaks a
contract or misses a value. All that can end it is a check of a value that is not finite
(`Model.session_evaluable`).
-/

namespace MixedInteger

variable {K : Type}

namespace Graph

variable {A α β : Type} [Numeric K A] {graph : Graph K} {point : Assignment A}
  {options : EvalOptions} {roots : List NodeIdx}

/-- Whether a fault is that of a checked evaluation of one of some roots, at a node below the
root whose value is not finite. -/
def ReportsNonFinite (graph : Graph K) (roots : List NodeIdx) (point : Assignment A)
    (options : EvalOptions) (fault : Fault (EvalError K)) : Prop :=
  options.checkFinite = true ∧ ∃ root ∈ roots, graph.eval root point options = .error fault ∧
    ∃ idx operator value, graph.Reaches root idx ∧ fault = .error (.nonFinite idx operator value)

/-- Whether an evaluation of some roots has a result, or ends as a checked one may. -/
def Answers (graph : Graph K) (roots : List NodeIdx) (point : Assignment A)
    (options : EvalOptions) (outcome : Except (Fault (EvalError K)) α) : Prop :=
  (∃ result, outcome = .ok result) ∨
    ∃ fault, outcome = .error fault ∧ graph.ReportsNonFinite roots point options fault

/-- To have a result or to end as checked evaluations may is a matter of faults alone. -/
theorem answers_iff_yields {outcome : Except (Fault (EvalError K)) α} :
    graph.Answers roots point options outcome ↔
      Outcome.Yields outcome (fun _ => True) (graph.ReportsNonFinite roots point options) := by
  cases outcome with
  | ok result => exact ⟨fun _ => trivial, fun _ => .inl ⟨result, rfl⟩⟩
  | error fault =>
      constructor
      · rintro (⟨result, absurd⟩ | ⟨other, same, reports⟩)
        · cases absurd
        · cases same
          exact reports
      · exact fun reports => .inr ⟨fault, rfl, reports⟩

/-- Without checks there is always a result. -/
theorem Answers.exists_ok {outcome : Except (Fault (EvalError K)) α}
    (answers : graph.Answers roots point options outcome) (unchecked : options.checkFinite = false) :
    ∃ result, outcome = .ok result := by
  obtain done | ⟨fault, -, checked, -⟩ := answers
  · exact done
  · cases unchecked.symm.trans checked

/-- Steps in a row answer if each of them does. -/
theorem Answers.bind {outcome : Except (Fault (EvalError K)) α}
    {next : α → Except (Fault (EvalError K)) β} (first : graph.Answers roots point options outcome)
    (second : ∀ result, graph.Answers roots point options (next result)) :
    graph.Answers roots point options (outcome >>= next) :=
  answers_iff_yields.mpr <| (answers_iff_yields.mp first).bind fun result _ _ =>
    answers_iff_yields.mp (second result)

/-- A result is an answer. -/
theorem answers_ok (result : α) :
    graph.Answers roots point options (.ok result : Except (Fault (EvalError K)) α) :=
  .inl ⟨result, rfl⟩

/-- A list answers if each of its entries does. -/
theorem answers_mapM {list : List β} {f : β → Except (Fault (EvalError K)) α}
    (each : ∀ b ∈ list, graph.Answers roots point options (f b)) :
    graph.Answers roots point options (list.mapM f) :=
  answers_iff_yields.mpr <| Outcome.yields_mapM
    (fun b member => answers_iff_yields.mp (each b member)) fun _ _ => trivial

/-- An answer about some roots is one about more of them. -/
theorem Answers.mono {others : List NodeIdx} {outcome : Except (Fault (EvalError K)) α}
    (answers : graph.Answers roots point options outcome) (subset : roots ⊆ others) :
    graph.Answers others point options outcome := by
  obtain done | ⟨fault, failed, checked, root, member, below⟩ := answers
  · exact .inl done
  · exact .inr ⟨fault, failed, checked, root, subset member, below⟩

/-- A root whose variables are bound is evaluated, unless a check stops the evaluation. -/
theorem answers_eval (wellFormed : graph.WellFormed) {root : NodeIdx} (inside : root < graph.size)
    (bound : ∀ idx id, graph.kind? idx = some (.leaf id) → point.get? id ≠ none)
    (member : root ∈ roots) :
    graph.Answers roots point options (graph.eval root point options) := by
  obtain ⟨-, -, found⟩ | ⟨idx, error, reaches, offends, -, failed⟩ :=
    eval_cases wellFormed inside point options
  · exact .inl ⟨_, found⟩
  · refine .inr ⟨_, failed, ?_⟩
    cases offends with
    | unbound leaf absent => exact absurd absent (bound idx _ leaf)
    | nonFinite _ _ checked => exact ⟨checked, root, member, failed, idx, _, _, reaches, rfl⟩

end Graph

namespace Problem

variable {problem : Problem K} {graph : Graph K} {point : List K}

/-- What an evaluation of a problem in a graph at a point relies on. -/
structure Evaluable (problem : Problem K) (graph : Graph K) (point : List K) : Prop where
  owned : graph.id = problem.graph
  ordered : graph.WellFormed
  root_lt : ∀ root ∈ problem.roots, root < graph.size
  assigned : ∀ idx id, graph.kind? idx = some (.leaf id) → id < point.length

namespace Evaluable

variable (evaluable : problem.Evaluable graph point)

include evaluable

/-- The root of a constraint is in the graph. -/
theorem constraint_root_lt (constraint : Constraint K) (member : constraint ∈ problem.constraints) :
    constraint.root < graph.size :=
  evaluable.root_lt _ (List.mem_append_left _ (List.mem_map_of_mem member))

/-- The root of an objective is in the graph. -/
theorem objective_root_lt (objective : Objective) (member : objective ∈ problem.objectives) :
    objective.root < graph.size :=
  evaluable.root_lt _ (List.mem_append_right _ (List.mem_map_of_mem member))

/-- Every variable of the graph has an entry at the point. -/
theorem seeded_get?_ne_none {A : Type} [Scalar K] [Numeric K A] (idx : NodeIdx) (id : VariableId)
    (leaf : graph.kind? idx = some (.leaf id)) :
    (Assignment.seeded point : Assignment A).get? id ≠ none := by
  rw [Assignment.get?_seeded (evaluable.assigned idx id leaf)]
  exact Option.some_ne_none _

variable [Scalar K] (options : EvalOptions)

/-- The values of the constraints are found, or one of the constraints is not finite. -/
theorem answers_constraintValues :
    graph.Answers (problem.constraints.map Constraint.root) (Assignment.ofList point) options
      (problem.constraintValues graph point options) := by
  rw [constraintValues_eq evaluable.owned]
  refine Graph.answers_mapM fun constraint member => ?_
  refine Graph.answers_eval evaluable.ordered (evaluable.constraint_root_lt constraint member)
    (fun idx id leaf => ?_) (List.mem_map_of_mem member)
  simp [Assignment.get?, Assignment.ofList, evaluable.assigned idx id leaf]

/-- The gradient of a root is found, or something below the root is not finite. -/
theorem answers_gradientRow {root : NodeIdx} (inside : root < graph.size) {roots : List NodeIdx}
    (member : root ∈ roots) :
    graph.Answers roots (Assignment.seeded point : Assignment (FirstOrder K)) options
      (graph.gradientRow root (Assignment.seeded point) options) :=
  (Graph.answers_eval evaluable.ordered inside evaluable.seeded_get?_ne_none member).bind
    fun value => Graph.answers_ok value.gradient.nonzeros

/-- The Hessian of a root is found, or something below the root is not finite. -/
theorem answers_hessianMatrix {root : NodeIdx} (inside : root < graph.size)
    {roots : List NodeIdx} (member : root ∈ roots) :
    graph.Answers roots (Assignment.seeded point : Assignment (SecondOrder K)) options
      (graph.hessianMatrix root (Assignment.seeded point) options) :=
  (Graph.answers_eval evaluable.ordered inside evaluable.seeded_get?_ne_none member).bind
    fun value => Graph.answers_ok (Sparse.nonzeros value.hessian)

/-- The Jacobian of the constraints is found, or one of the constraints is not finite. -/
theorem answers_constraintJacobian :
    graph.Answers (problem.constraints.map Constraint.root)
      (Assignment.seeded point : Assignment (FirstOrder K)) options
      (problem.constraintJacobian graph point options) := by
  rw [constraintJacobian_eq evaluable.owned]
  exact Graph.answers_mapM fun constraint member => evaluable.answers_gradientRow options
    (evaluable.constraint_root_lt constraint member) (List.mem_map_of_mem member)

/-- The Hessians of the constraints are found, or one of the constraints is not finite. -/
theorem answers_constraintHessians :
    graph.Answers (problem.constraints.map Constraint.root)
      (Assignment.seeded point : Assignment (SecondOrder K)) options
      (problem.constraintHessians graph point options) := by
  rw [constraintHessians_eq evaluable.owned]
  exact Graph.answers_mapM fun constraint member => evaluable.answers_hessianMatrix options
    (evaluable.constraint_root_lt constraint member) (List.mem_map_of_mem member)

section Objective

variable {position : Nat} {objective : Objective}
  (listed : problem.objectives[position]? = some objective)

include listed

/-- The gradient of an objective is found, or the objective is not finite. -/
theorem answers_objectiveGradient :
    graph.Answers [objective.root] (Assignment.seeded point : Assignment (FirstOrder K)) options
      (problem.objectiveGradient graph position point options) := by
  rw [objectiveGradient_eq evaluable.owned listed]
  exact evaluable.answers_gradientRow options
    (evaluable.objective_root_lt objective (List.mem_of_getElem? listed)) List.mem_cons_self

/-- The Hessian of an objective is found, or the objective is not finite. -/
theorem answers_objectiveHessian :
    graph.Answers [objective.root] (Assignment.seeded point : Assignment (SecondOrder K)) options
      (problem.objectiveHessian graph position point options) := by
  rw [objectiveHessian_eq evaluable.owned listed]
  exact evaluable.answers_hessianMatrix options
    (evaluable.objective_root_lt objective (List.mem_of_getElem? listed)) List.mem_cons_self

end Objective

/-- The roots that the Lagrangian is made of: that of the first objective, and those of the
constraints. -/
theorem answers_lagrangianHessian (weight : K) {multipliers : List K}
    (matched : multipliers.length = problem.constraints.length) :
    graph.Answers
      ((problem.objectives.take 1).map Objective.root ++ problem.constraints.map Constraint.root)
      (Assignment.seeded point : Assignment (SecondOrder K)) options
      (problem.lagrangianHessian graph weight multipliers point options) := by
  have objective : graph.Answers ((problem.objectives.take 1).map Objective.root)
      (Assignment.seeded point : Assignment (SecondOrder K)) options
      (problem.weightedObjective graph weight point options) := by
    unfold weightedObjective
    split
    · exact Graph.answers_ok _
    · cases objectives : problem.objectives with
      | nil => simp_all
      | cons first others =>
          have listed : problem.objectives[0]? = some first := by rw [objectives]; rfl
          exact (evaluable.answers_objectiveHessian options listed).bind
            fun matrix => Graph.answers_ok _
  unfold lagrangianHessian
  rw [if_neg (not_not.mpr matched)]
  refine (objective.mono (List.subset_append_left _ _)).bind fun total => ?_
  refine ((evaluable.answers_constraintHessians options).mono
    (List.subset_append_right _ _)).bind fun matrices => Graph.answers_ok _

end Evaluable

end Problem

/-! ## The graphs of a session -/

namespace Graph

variable {graph : Graph K}

/-- Whatever an insertion answers, it leaves a well-formed graph if the node has the children
that it asks for. -/
theorem WellFormed.insert_answered (wellFormed : graph.WellFormed) {node : Node K}
    (formed : node.kind.checkArity = .ok ()) : (graph.insert node).2.WellFormed := by
  cases answered : graph.insert node with
  | mk answer next =>
      cases answer with
      | ok idx => exact wellFormed.insert formed answered
      | error broken =>
          cases insert_eq_error answered
          exact wellFormed

/-- Whatever a change of a depth hint answers, it leaves a well-formed graph. -/
theorem WellFormed.setDepth_answered (wellFormed : graph.WellFormed) (idx : NodeIdx)
    (depth : Nat) : (graph.setDepth idx depth).2.WellFormed := by
  cases answered : graph.setDepth idx depth with
  | mk answer next =>
      cases answer with
      | ok _ => exact wellFormed.of_kinds fun _ => kind_of_setDepth answered
      | error broken =>
          cases setDepth_eq_error answered
          exact wellFormed

end Graph

namespace Builder

variable {builder : Builder K}

/-- The node that a caller hands over with a request. -/
def Request.node? : Request K → Option (Node K)
  | insertVertex node => some node
  | _ => none

/-- A node that is attached has the children that it asks for, and the graph keeps its promises. -/
theorem wellFormed_insertVertex (wellFormed : builder.graph.WellFormed) {node : Node K}
    (formed : node.kind.checkArity = .ok ()) :
    (insertVertex node builder).2.graph.WellFormed := by
  unfold insertVertex
  split
  · exact wellFormed
  · exact wellFormed.insert_answered formed

/-- A new node is created with the children that it asks for. -/
theorem wellFormed_insertNew (wellFormed : builder.graph.WellFormed) (kind : NodeKind K) :
    (insertNew kind builder).2.graph.WellFormed := by
  unfold insertNew
  split
  · rename_i node uids created
    obtain ⟨formed, uid, -, rfl⟩ := Node.create_eq_ok (congrArg Prod.fst created)
    have advanced : ({ builder with uids } : Builder K).graph.WellFormed := wellFormed
    exact wellFormed_insertVertex advanced formed
  · exact wellFormed

variable [Scalar K]

/-- The leaf of a new variable asks for no children. -/
theorem wellFormed_addVariable (wellFormed : builder.graph.WellFormed) (name : String)
    (bounds : Bounds K) (domain : Domain) :
    (addVariable name bounds domain builder).2.graph.WellFormed := by
  unfold addVariable
  dsimp only
  split
  · exact wellFormed
  · rename_i id checked
    obtain ⟨node, idx, graph, uids, kind, inserted, done⟩ | ⟨fault, uids, refused⟩ :=
      insertLeaf_cases builder id
    · rw [done]
      exact wellFormed.insert (by rw [kind]; rfl) inserted
    · rw [refused]
      exact wellFormed

/-- A builder keeps its graph well-formed when it is handed prepared nodes only. -/
theorem wellFormed_perform (wellFormed : builder.graph.WellFormed) {request : Request K}
    (prepared : ∀ node, request.node? = some node → node.Prepared) :
    (request.perform builder).2.graph.WellFormed := by
  cases request with
  | addVariable name bounds domain => exact wellFormed_addVariable wellFormed name bounds domain
  | insertVertex node => exact wellFormed_insertVertex wellFormed (prepared node rfl).formed
  | constant value => exact wellFormed_insertNew wellFormed _
  | operator op children => exact wellFormed_insertNew wellFormed _
  | setBounds id bounds =>
      simp only [Request.perform, setBounds]
      split
      · exact wellFormed
      · split <;> exact wellFormed
  | addConstraint name root bounds =>
      simp only [Request.perform, silent, addConstraint]
      split <;> exact wellFormed
  | addObjective name root sense =>
      simp only [Request.perform, silent, addObjective]
      split <;> exact wellFormed

end Builder

namespace Model

variable {model : Model K}

/-- The node that a caller hands over with a request. -/
def Request.node? : Request K → Option (Node K)
  | insertNode _ node => some node
  | build _ request => request.node?
  | _ => none

/-- Whether every live graph of a model is well-formed. -/
def GraphsWellFormed (model : Model K) : Prop :=
  ∀ key graph, model.graphs.get? key = some graph → graph.WellFormed

namespace GraphsWellFormed

variable (wellFormed : model.GraphsWellFormed) {next : Model K} {key : GraphId}

include wellFormed

/-- A well-formed graph may be stored in place of another one. -/
theorem set {changed : Graph K} (formed : changed.WellFormed)
    (same : next.graphs = model.graphs.set key changed) : next.GraphsWellFormed := by
  intro other graph live
  rw [same] at live
  obtain ⟨-, rfl⟩ | ⟨-, before⟩ := Arena.get?_set_cases live
  · exact formed
  · exact wellFormed other graph before

/-- A new graph is well-formed. -/
theorem occupy {owner : Option ProblemId} (announced : model.graphs.nextKey = .ok key)
    (same : next.graphs = model.graphs.occupy key { id := key, problem := owner }) :
    next.GraphsWellFormed := by
  intro other graph live
  rw [same] at live
  obtain ⟨-, rfl⟩ | ⟨-, before⟩ := Arena.get?_occupy_cases announced live
  · exact Graph.wellFormed_empty key owner
  · exact wellFormed other graph before

/-- A removal leaves the other graphs well-formed. -/
theorem erase (same : next.graphs = model.graphs.erase key) : next.GraphsWellFormed := by
  intro other graph live
  rw [same] at live
  exact wellFormed other graph (Arena.get?_of_get?_erase live)

/-- A step that keeps well-formed graphs well-formed may be run on any graph of a model. -/
theorem onGraph {α : Type} {step : Graph K → GraphAnswer K α}
    (keeps : ∀ graph : Graph K, graph.WellFormed → (step graph).2.WellFormed) :
    (onGraph key step model).2.GraphsWellFormed := by
  unfold Model.onGraph
  split
  · exact wellFormed
  · rename_i graph found
    exact wellFormed.set (keeps graph (wellFormed key graph (graph_eq_ok_iff.mp found))) rfl

variable [Scalar K]

/-- All graphs of a model stay well-formed when it is handed prepared nodes only. -/
theorem perform {request : Request K}
    (prepared : ∀ node, request.node? = some node → node.Prepared) :
    (request.perform model).2.GraphsWellFormed := by
  cases request with
  | createProblem name =>
      simp only [Request.perform, silent, createProblem, Arena.insertWith]
      cases model.problems.nextKey with
      | error broken => exact wellFormed
      | ok id =>
          cases announced : model.graphs.nextKey with
          | error broken => exact wellFormed
          | ok key => exact wellFormed.occupy announced rfl
  | createGraph =>
      simp only [Request.perform, silent, createGraph, Arena.insertWith]
      cases announced : model.graphs.nextKey with
      | error broken => exact wellFormed
      | ok key => exact wellFormed.occupy announced rfl
  | removeProblem id =>
      simp only [Request.perform, removal]
      split
      · rename_i removed
        obtain ⟨problem, -, removed⟩ := Outcome.bind_eq_ok_iff.mp removed
        cases removed
        exact wellFormed.erase rfl
      · exact wellFormed
  | removeGraph key =>
      simp only [Request.perform, removal]
      split
      · rename_i removed
        obtain ⟨graph, -, removed⟩ := Outcome.bind_eq_ok_iff.mp removed
        cases removed
        exact wellFormed.erase rfl
      · exact wellFormed
  | createNode kind => exact wellFormed
  | insertNode key node =>
      exact wellFormed.onGraph fun graph formed =>
        formed.insert_answered (prepared node rfl).formed
  | setDepth key idx depth =>
      exact wellFormed.onGraph fun graph formed => formed.setDepth_answered idx depth
  | build id inner =>
      simp only [Request.perform, Model.build]
      split
      · exact wellFormed
      · rename_i problem graph found
        obtain ⟨-, liveGraph⟩ := problemWithGraph_eq_ok_iff.mp found
        have formed := wellFormed problem.graph graph liveGraph
        exact wellFormed.set (Builder.wellFormed_perform formed prepared) rfl

end GraphsWellFormed

variable [Scalar K]

/-- After requests that hand over prepared nodes only, every live graph is well-formed. -/
theorem graphsWellFormed_session {uids : UidSource} {requests : List (Request K)}
    (prepared : ∀ request ∈ requests, ∀ node, request.node? = some node → node.Prepared) :
    (session { uids } requests).GraphsWellFormed := by
  induction requests using List.reverseRecOn with
  | nil => exact nofun
  | append_singleton requests request ih =>
      obtain ⟨earlier, last⟩ := List.forall_mem_append.mp prepared
      rw [session_concat]
      exact (ih earlier).perform (last request List.mem_cons_self)

/-- A quotient by a constant that was made elsewhere is bounded and minimised. -/
def ratio : List (Request Float) :=
  [.createProblem "p",
    .build ⟨0, 0⟩ (.addVariable "x" {} .real),
    .build ⟨0, 0⟩ (.insertVertex { uid := ⟨7⟩, kind := .constant 0.0 }),
    .build ⟨0, 0⟩ (.operator .division [0, 1]),
    .build ⟨0, 0⟩ (.addConstraint "c" 2 {}),
    .build ⟨0, 0⟩ (.addObjective "o" 2 .minimize)]

end Model

end MixedInteger
