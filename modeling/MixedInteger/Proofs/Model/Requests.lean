import MixedInteger.Model.Basic
import MixedInteger.Proofs.Identity.Slots
import MixedInteger.Proofs.Model.Building

/-! # Requests of a model

What a caller may ask of a model, and what a request leaves of its problems and
graphs (`Model.step_perform`). A session is a sequence of requests in which any may
fail. Whatever is live after a request was live before it, with at most the changes
that the request has made, or has just been created.
-/

namespace MixedInteger

namespace Model

variable {K : Type}

/-- What a caller may ask of a model. Nodes are values of the caller, who may have
named any owners in them. -/
inductive Request (K : Type) where
  | createProblem (name : String)
  | createGraph
  | removeProblem (id : ProblemId)
  | removeGraph (key : GraphId)
  | createNode (kind : NodeKind K)
  | insertNode (key : GraphId) (node : Node K)
  | setDepth (key : GraphId) (idx : NodeIdx) (depth : Nat)
  | build (id : ProblemId) (request : Builder.Request K)

/-- A removal as a step. -/
def removal (remove : Model K → Except ReferenceError (Model K)) : ModelStep K Unit :=
  fun model =>
    match remove model with
    | .ok next => (.ok (), next)
    | .error error => (.error (.error (.reference error)), model)

/-- A step without the value that it answers with. -/
def silent {α : Type} (step : ModelStep K α) : ModelStep K Unit := fun model =>
  ((step model).1.map fun _ => (), (step model).2)

namespace Request

/-- The step that answers a request. -/
def perform [Scalar K] : Request K → ModelStep K Unit
  | createProblem name => silent (Model.createProblem name)
  | createGraph => silent Model.createGraph
  | removeProblem id => removal fun model => model.removeProblem id
  | removeGraph key => removal fun model => model.removeGraph key
  | createNode kind => silent (Model.createNode kind)
  | insertNode key node => silent (Model.insertNode key node)
  | setDepth key idx depth => silent (Model.setDepth key idx depth)
  | build id request => Model.build id request.perform

/-- The graph that a request asks to remove, alone or with its problem. -/
def removedGraph? (model : Model K) : Request K → Option GraphId
  | removeProblem id => (model.problems.get? id).map Problem.graph
  | removeGraph key => some key
  | _ => none

/-- The graph that a request frees. -/
def freedGraph? (model : Model K) (request : Request K) : Option GraphId :=
  (request.removedGraph? model).filter model.graphs.contains

end Request

variable [Scalar K]

/-- The model after requests, answered in turn. -/
def session (model : Model K) (requests : List (Request K)) : Model K :=
  requests.foldl (fun model request => (request.perform model).2) model

/-- The graphs that requests free, in turn. -/
def freedGraphs (model : Model K) : List (Request K) → List GraphId
  | [] => []
  | request :: later =>
      (request.freedGraph? model).toList ++ freedGraphs (request.perform model).2 later

/-- A session that ends in a request leaves what the request leaves of the session before it. -/
theorem session_concat (model : Model K) (requests : List (Request K)) (request : Request K) :
    model.session (requests ++ [request]) = (request.perform (model.session requests)).2 :=
  List.foldl_concat ..

/-- The graphs freed along two sessions in a row are those of the first, then those of the
second. -/
theorem freedGraphs_append (model : Model K) (requests later : List (Request K)) :
    model.freedGraphs (requests ++ later) =
      model.freedGraphs requests ++ (model.session requests).freedGraphs later := by
  induction requests generalizing model with
  | nil => rfl
  | cons request requests ih =>
      rw [List.cons_append, freedGraphs, freedGraphs, ih, List.append_assoc]
      rfl

/-- One more request adds at most one key to those of the freed graphs. -/
theorem freedGraphs_concat (model : Model K) (requests : List (Request K)) (request : Request K) :
    model.freedGraphs (requests ++ [request]) =
      model.freedGraphs requests ++ (request.freedGraph? (model.session requests)).toList := by
  rw [freedGraphs_append, freedGraphs, freedGraphs, List.append_nil]

/-! ## What the requests leave -/

/-- What may become of a model in one step. -/
inductive Step (model : Model K) : Request K → Model K → Prop where
  | keep {request : Request K} (uids : UidSource) (nothing : request.freedGraph? model = none) :
      Step model request { model with uids }
  | createProblem {name : String} {id : ProblemId} {key : GraphId}
      (announced : model.problems.nextKey = .ok id) (announcedGraph : model.graphs.nextKey = .ok key) :
      Step model (.createProblem name) { model with
        problems := model.problems.occupy id { id, name, graph := key }
        graphs := model.graphs.occupy key { id := key, problem := some id } }
  | loseSlot {name : String} {id : ProblemId} {broken : Violation}
      (announced : model.problems.nextKey = .ok id) (full : model.graphs.nextKey = .error broken) :
      Step model (.createProblem name) { model with problems := model.problems.claim id }
  | createGraph {key : GraphId} (announced : model.graphs.nextKey = .ok key) :
      Step model .createGraph { model with graphs := model.graphs.occupy key { id := key } }
  | removeProblem {id : ProblemId} {problem : Problem K}
      (live : model.problems.get? id = some problem) :
      Step model (.removeProblem id) { model with
        problems := model.problems.erase id, graphs := model.graphs.erase problem.graph }
  | removeGraph {key : GraphId} {graph : Graph K} (live : model.graphs.get? key = some graph) :
      Step model (.removeGraph key) { model with graphs := model.graphs.erase key }
  | change {request : Request K} {key : GraphId} {graph changed : Graph K}
      (direct : ∀ id inner, request ≠ .build id inner)
      (nothing : request.freedGraph? model = none)
      (live : model.graphs.get? key = some graph) (step : graph.Step changed) :
      Step model request { model with graphs := model.graphs.set key changed }
  | build {id : ProblemId} {inner : Builder.Request K} {problem : Problem K} {graph : Graph K}
      {rest : Builder K} (live : model.problems.get? id = some problem)
      (liveGraph : model.graphs.get? problem.graph = some graph)
      (step : Builder.Step { problem, graph, uids := model.uids } rest) :
      Step model (.build id inner) {
        uids := rest.uids
        problems := model.problems.set id rest.problem
        graphs := model.graphs.set problem.graph rest.graph }

omit [Scalar K] in
/-- A problem is handed out for a key exactly when the arena still holds one under it. -/
theorem problem_eq_ok_iff {model : Model K} {id : ProblemId} {problem : Problem K} :
    model.problem id = .ok problem ↔ model.problems.get? id = some problem := by
  unfold Model.problem
  cases model.problems.get? id with
  | none => exact ⟨nofun, nofun⟩
  | some problem => simp only [Except.ok.injEq, Option.some.injEq]

omit [Scalar K] in
/-- A graph is handed out for a key exactly when the arena still holds one under it. -/
theorem graph_eq_ok_iff {model : Model K} {key : GraphId} {graph : Graph K} :
    model.graph key = .ok graph ↔ model.graphs.get? key = some graph := by
  unfold Model.graph
  cases model.graphs.get? key with
  | none => exact ⟨nofun, nofun⟩
  | some graph => simp only [Except.ok.injEq, Option.some.injEq]

omit [Scalar K] in
/-- A problem is handed out with its graph exactly when both are still held. -/
theorem problemWithGraph_eq_ok_iff {model : Model K} {id : ProblemId} {problem : Problem K}
    {graph : Graph K} : model.problemWithGraph id = .ok (problem, graph) ↔
      model.problems.get? id = some problem ∧ model.graphs.get? problem.graph = some graph := by
  rw [← problem_eq_ok_iff, ← graph_eq_ok_iff]
  constructor
  · intro found
    obtain ⟨problem, live, found⟩ := Outcome.bind_eq_ok_iff.mp found
    obtain ⟨graph, liveGraph, found⟩ := Outcome.bind_eq_ok_iff.mp found
    cases found
    exact ⟨live, liveGraph⟩
  · rintro ⟨live, liveGraph⟩
    rw [problemWithGraph, live, Outcome.ok_bind, liveGraph]
    rfl

variable (model : Model K)

/-- Creating a problem adds it with its graph, loses a problem slot, or changes nothing. -/
theorem step_createProblem (name : String) :
    model.Step (.createProblem name) ((Request.createProblem name).perform model).2 := by
  simp only [Request.perform, silent, Model.createProblem, Arena.insertWith]
  cases announced : model.problems.nextKey with
  | error broken => exact .keep model.uids rfl
  | ok id =>
      cases announcedGraph : model.graphs.nextKey with
      | error broken => exact .loseSlot announced announcedGraph
      | ok key => exact .createProblem announced announcedGraph

/-- Creating a graph adds an empty graph that no problem owns, or changes nothing. -/
theorem step_createGraph : model.Step .createGraph (Request.createGraph.perform model).2 := by
  simp only [Request.perform, silent, Model.createGraph, Arena.insertWith]
  cases announced : model.graphs.nextKey with
  | error broken => exact .keep model.uids rfl
  | ok key => exact .createGraph announced

omit [Scalar K] in
/-- A problem is removed together with whatever its graph's key resolves to. -/
theorem removeProblem_eq {id : ProblemId} {problem : Problem K}
    (live : model.problems.get? id = some problem) :
    model.removeProblem id = .ok { model with
      problems := model.problems.erase id, graphs := model.graphs.erase problem.graph } := by
  rw [Model.removeProblem, problem_eq_ok_iff.mpr live]
  rfl

/-- Removing a problem erases it and its graph, or changes nothing. -/
theorem step_removeProblem (id : ProblemId) :
    model.Step (.removeProblem id) ((Request.removeProblem id).perform model).2 := by
  cases live : model.problems.get? id with
  | some problem =>
      simp only [Request.perform, removal, removeProblem_eq model live]
      exact .removeProblem live
  | none =>
      simp only [Request.perform, removal, Model.removeProblem, Model.problem, live]
      exact .keep model.uids (by simp [Request.freedGraph?, Request.removedGraph?, live])

/-- Removing a graph erases it alone, or changes nothing. -/
theorem step_removeGraph (key : GraphId) :
    model.Step (.removeGraph key) ((Request.removeGraph key).perform model).2 := by
  simp only [Request.perform, removal, Model.removeGraph, Model.graph]
  cases live : model.graphs.get? key with
  | some graph => exact .removeGraph live
  | none =>
      exact .keep model.uids
        (by simp [Request.freedGraph?, Request.removedGraph?, Arena.contains, live])

omit [Scalar K] in
/-- A step on a graph stores what it leaves of the graph. -/
theorem onGraph_of_live {α : Type} {key : GraphId} {graph : Graph K}
    (live : model.graphs.get? key = some graph) (step : Graph K → GraphAnswer K α) :
    onGraph key step model =
      (Fault.contract (step graph).1,
        { model with graphs := model.graphs.set key (step graph).2 }) := by
  rw [onGraph, graph_eq_ok_iff.mpr live]

/-- A step on a graph that changes it at most as a graph may change. -/
theorem step_onGraph {α : Type} {request : Request K} {key : GraphId}
    {change : Graph K → GraphAnswer K α}
    (direct : ∀ id inner, request ≠ .build id inner) (nothing : request.freedGraph? model = none)
    (steps : ∀ graph : Graph K, graph.Step (change graph).2) :
    model.Step request (onGraph key change model).2 := by
  cases live : model.graphs.get? key with
  | none =>
      rw [onGraph, Model.graph, live]
      exact .keep model.uids nothing
  | some graph =>
      rw [onGraph_of_live model live]
      exact .change direct nothing live (steps graph)

/-- A builder request leaves what a step of the builder leaves, or changes nothing. -/
theorem step_build (id : ProblemId) (inner : Builder.Request K) :
    model.Step (.build id inner) ((Request.build id inner).perform model).2 := by
  simp only [Request.perform, Model.build]
  split
  · exact .keep model.uids rfl
  · rename_i problem graph found
    obtain ⟨live, liveGraph⟩ := problemWithGraph_eq_ok_iff.mp found
    exact .build live liveGraph (Builder.step_perform _ inner)

/-- **What a request leaves of a model.** -/
theorem step_perform (request : Request K) : model.Step request (request.perform model).2 := by
  cases request with
  | createProblem name => exact model.step_createProblem name
  | createGraph => exact model.step_createGraph
  | removeProblem id => exact model.step_removeProblem id
  | removeGraph key => exact model.step_removeGraph key
  | createNode kind => exact .keep _ rfl
  | insertNode key node => exact model.step_onGraph (by nofun) rfl fun graph => graph.step_insert node
  | setDepth key idx depth =>
      exact model.step_onGraph (by nofun) rfl fun graph => graph.step_setDepth idx depth
  | build id inner => exact model.step_build id inner

/-! ## What is live before and after a request -/

variable {model : Model K} {next : Model K} {request : Request K}

/-- A live problem was live before, or it has been created with its graph. -/
theorem Step.problem_before (step : model.Step request next) {id : ProblemId}
    {problem : Problem K} (live : next.problems.get? id = some problem) :
    (∃ earlier, model.problems.get? id = some earlier ∧ problem.id = earlier.id ∧
      problem.graph = earlier.graph) ∨
    (model.graphs.nextKey = .ok problem.graph ∧ problem.id = id ∧
      next.graphs.get? problem.graph = some { id := problem.graph, problem := some id }) := by
  cases step with
  | keep | createGraph | removeGraph | change => exact .inl ⟨problem, live, rfl, rfl⟩
  | loseSlot announced _ =>
      exact .inl ⟨problem, (Arena.get?_claim announced id).symm.trans live, rfl, rfl⟩
  | createProblem announced announcedGraph =>
      obtain ⟨rfl, rfl⟩ | ⟨-, before⟩ := Arena.get?_occupy_cases announced live
      · exact .inr ⟨announcedGraph, rfl, by rw [Arena.get?_occupy announcedGraph, if_pos rfl]⟩
      · exact .inl ⟨problem, before, rfl, rfl⟩
  | removeProblem => exact .inl ⟨problem, Arena.get?_of_get?_erase live, rfl, rfl⟩
  | build found _ step =>
      obtain ⟨rfl, rfl⟩ | ⟨-, before⟩ := Arena.get?_set_cases live
      · exact .inl ⟨_, found, step.problem_eq⟩
      · exact .inl ⟨problem, before, rfl, rfl⟩

/-- A live problem stays live with its graph's key, or it is removed with its graph. -/
theorem Step.problem_after (step : model.Step request next) {id : ProblemId}
    {problem : Problem K} (live : model.problems.get? id = some problem) :
    (∃ later, next.problems.get? id = some later ∧ later.graph = problem.graph) ∨
    (request = .removeProblem id ∧ next.graphs.get? problem.graph = none) := by
  cases step with
  | keep | createGraph | removeGraph | change => exact .inl ⟨problem, live, rfl⟩
  | loseSlot announced _ => exact .inl ⟨problem, (Arena.get?_claim announced id).trans live, rfl⟩
  | createProblem announced _ =>
      exact .inl ⟨problem, Arena.get?_occupy_of_live announced live, rfl⟩
  | @removeProblem other removed found =>
      by_cases same : other = id
      · subst same
        cases found.symm.trans live
        exact .inr ⟨rfl, by rw [Arena.get?_erase, if_pos rfl]⟩
      · exact .inl ⟨problem, by rw [Arena.get?_erase, if_neg same, live], rfl⟩
  | @build other _ old _ rest found _ step =>
      by_cases same : other = id
      · subst same
        cases found.symm.trans live
        exact .inl ⟨rest.problem, by rw [Arena.get?_set, if_pos rfl, live]; rfl,
          step.problem_eq.2⟩
      · exact .inl ⟨problem, by rw [Arena.get?_set, if_neg same, live], rfl⟩

/-- A live graph was live before, or it has been created, possibly for a problem. -/
theorem Step.graph_before (step : model.Step request next) {key : GraphId} {graph : Graph K}
    (live : next.graphs.get? key = some graph) :
    (∃ earlier, model.graphs.get? key = some earlier ∧ earlier.Step graph) ∨
    (model.graphs.nextKey = .ok key ∧ ∃ owner, graph = { id := key, problem := owner } ∧
      ∀ id, owner = some id → ∃ problem, next.problems.get? id = some problem ∧
        problem.graph = key) := by
  have replaced {old : Graph K} {other : GraphId} {changed : Graph K}
      (found : model.graphs.get? other = some old) (step : old.Step changed)
      (resolved : (model.graphs.set other changed).get? key = some graph) :
      ∃ earlier, model.graphs.get? key = some earlier ∧ earlier.Step graph := by
    obtain ⟨rfl, rfl⟩ | ⟨-, before⟩ := Arena.get?_set_cases resolved
    · exact ⟨old, found, step⟩
    · exact ⟨graph, before, .keep⟩
  cases step with
  | keep | loseSlot => exact .inl ⟨graph, live, .keep⟩
  | createProblem announced announcedGraph =>
      obtain ⟨rfl, rfl⟩ | ⟨-, before⟩ := Arena.get?_occupy_cases announcedGraph live
      · refine .inr ⟨announcedGraph, _, rfl, fun id same => ?_⟩
        cases same
        exact ⟨_, by rw [Arena.get?_occupy announced, if_pos rfl], rfl⟩
      · exact .inl ⟨graph, before, .keep⟩
  | createGraph announced =>
      obtain ⟨rfl, rfl⟩ | ⟨-, before⟩ := Arena.get?_occupy_cases announced live
      · exact .inr ⟨announced, none, rfl, nofun⟩
      · exact .inl ⟨graph, before, .keep⟩
  | removeProblem | removeGraph => exact .inl ⟨graph, Arena.get?_of_get?_erase live, .keep⟩
  | change _ _ found step => exact .inl (replaced found step live)
  | build _ found step => exact .inl (replaced found step.graph_step live)

/-- A live graph stays live, or it is the one that the request asks to remove. -/
theorem Step.graph_after (step : model.Step request next) {key : GraphId} {graph : Graph K}
    (live : model.graphs.get? key = some graph) :
    (∃ later, next.graphs.get? key = some later ∧ graph.Step later) ∨
      request.removedGraph? model = some key := by
  have replaced {old : Graph K} {other : GraphId} {changed : Graph K}
      (found : model.graphs.get? other = some old) (step : old.Step changed) :
      ∃ later, (model.graphs.set other changed).get? key = some later ∧ graph.Step later := by
    rw [Arena.get?_set, found]
    split
    · rename_i same
      subst same
      cases found.symm.trans live
      exact ⟨changed, rfl, step⟩
    · exact ⟨graph, live, .keep⟩
  cases step with
  | keep | loseSlot => exact .inl ⟨graph, live, .keep⟩
  | createProblem _ announced | createGraph announced =>
      exact .inl ⟨graph, Arena.get?_occupy_of_live announced live, .keep⟩
  | @removeProblem id problem found =>
      by_cases same : problem.graph = key
      · exact .inr (by rw [Request.removedGraph?, found, Option.map_some, same])
      · exact .inl ⟨graph, by rw [Arena.get?_erase, if_neg same, live], .keep⟩
  | @removeGraph other =>
      by_cases same : other = key
      · exact .inr (congrArg some same)
      · exact .inl ⟨graph, by rw [Arena.get?_erase, if_neg same, live], .keep⟩
  | change _ _ found step => exact .inl (replaced found step)
  | build _ found step => exact .inl (replaced found step.graph_step)

end Model

end MixedInteger
