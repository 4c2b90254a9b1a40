import Mathlib.Data.List.Induction
import MixedInteger.Proofs.Model.Ownership
import MixedInteger.Proofs.Model.Refusals
import MixedInteger.Scalar.Binary64

/-! # Requests that fail

A request that fails leaves the problems and the graphs of a model as they were, and
costs an identity only if a builder has made a node that the graph then refuses
(`Model.session_failureAtomic`). A new problem has its slot before its graph has one, so
that the slot is lost when there is none for the graph (`Model.Request.lostSlot?`).
-/

namespace MixedInteger

variable {K : Type}

namespace Model

variable {model next : Model K} {fault : Fault (ModelError K)}

namespace Request

/-- The slot that a request for a problem takes in vain when there is none for the graph of
the problem. -/
def lostSlot? (model : Model K) : Request K → Option ProblemId
  | createProblem _ =>
      match model.problems.nextKey, model.graphs.nextKey with
      | .ok id, .error _ => some id
      | _, _ => none
  | _ => none

/-- A slot is lost to a problem whose graph has no place. -/
theorem lostSlot?_eq_some {model : Model K} {request : Request K} {id : ProblemId}
    (lost : request.lostSlot? model = some id) : (∃ name, request = .createProblem name) ∧
      model.problems.nextKey = .ok id ∧ ∃ broken, model.graphs.nextKey = .error broken := by
  cases request with
  | createProblem name =>
      unfold lostSlot? at lost
      cases announced : model.problems.nextKey with
      | error broken =>
          rw [announced] at lost
          cases lost
      | ok taken =>
          cases announcedGraph : model.graphs.nextKey with
          | error broken =>
              rw [announced, announcedGraph] at lost
              cases lost
              exact ⟨⟨name, rfl⟩, rfl, broken, rfl⟩
          | ok key =>
              rw [announced, announcedGraph] at lost
              cases lost
  | createGraph | removeProblem | removeGraph | createNode | insertNode | setDepth | build =>
      cases lost

/-- Whether a request gets an identity for a node that the graph of a problem then
refuses. -/
def WastesUid [Scalar K] (model : Model K) : Request K → Prop
  | build id inner => ∃ problem graph, model.problemWithGraph id = .ok (problem, graph) ∧
      inner.WastesUid { problem, graph, uids := model.uids }
  | _ => False

end Request

/-- What is left of a model by a request that fails: the problem arena, except that a slot
of it may be lost, all graphs, and the source of identities. -/
structure Failed (model : Model K) (lost : Option ProblemId) (wasted : Prop)
    (next : Model K) : Prop where
  problems_eq : next.problems = lost.elim model.problems model.problems.claim
  graphs_eq : next.graphs = model.graphs
  uids : model.uids.Loses wasted next.uids

/-- A request that is turned down at once leaves everything. -/
theorem failed_self {wasted : Prop} (spared : ¬ wasted) : model.Failed none wasted model :=
  ⟨rfl, rfl, UidSource.loses_nothing spared⟩

/-- What can be looked up, listed or counted is blind to a slot that is lost. -/
theorem Failed.problems_alike {lost : Option ProblemId} {wasted : Prop}
    (failed : model.Failed lost wasted next)
    (announced : ∀ id, lost = some id → model.problems.nextKey = .ok id) :
    (∀ id, next.problems.get? id = model.problems.get? id) ∧
      next.problems.toList = model.problems.toList ∧
      next.problems.size = model.problems.size := by
  rw [failed.problems_eq]
  cases lost with
  | none => exact ⟨fun _ => rfl, rfl, rfl⟩
  | some id => exact ⟨Arena.get?_claim (announced id rfl), Arena.toList_claim _ id, rfl⟩

/-- A problem that is not created leaves its slot behind if it had one. -/
theorem failed_createProblem {name : String}
    (failed : (createProblem name model).1 = .error fault) :
    model.Failed ((Request.createProblem name).lostSlot? model) False
      (createProblem name model).2 := by
  unfold createProblem Arena.insertWith Request.lostSlot? at *
  cases announced : model.problems.nextKey with
  | error broken => exact failed_self id
  | ok id =>
      cases announcedGraph : model.graphs.nextKey with
      | error broken => exact ⟨rfl, rfl, UidSource.loses_nothing not_false⟩
      | ok key =>
          rw [announced, announcedGraph] at failed
          cases failed

/-- A graph that is not created leaves nothing behind. -/
theorem failed_createGraph (failed : (createGraph model).1 = .error fault) :
    model.Failed none False (createGraph model).2 := by
  unfold createGraph at failed ⊢
  split
  · exact failed_self id
  · rename_i created
    rw [created] at failed
    cases failed

/-- A removal that fails has found nothing to remove. -/
theorem failed_removal {remove : Model K → Except ReferenceError (Model K)}
    (failed : (removal remove model).1 = .error fault) :
    model.Failed none False (removal remove model).2 := by
  unfold removal at failed ⊢
  split at failed
  · cases failed
  · exact failed_self id

/-- A graph that is left as it was is stored as it was. -/
theorem failed_onGraph {α : Type} {key : GraphId} {step : Graph K → GraphAnswer K α}
    (refuses : ∀ graph broken, (step graph).1 = .error broken → (step graph).2 = graph)
    (failed : (onGraph key step model).1 = .error fault) :
    model.Failed none False (onGraph key step model).2 := by
  cases live : model.graphs.get? key with
  | none =>
      rw [onGraph, Model.graph, live]
      exact failed_self id
  | some graph =>
      rw [onGraph_of_live model live] at failed ⊢
      cases answered : (step graph).1 with
      | ok value =>
          rw [answered] at failed
          cases failed
      | error broken =>
          refine ⟨rfl, ?_, UidSource.loses_nothing not_false⟩
          exact (congrArg _ (refuses graph broken answered)).trans (Arena.set_eq_self live)

/-- A node that cannot be created costs no identity. -/
theorem failed_createNode {kind : NodeKind K}
    (failed : (createNode kind model).1 = .error fault) :
    model.Failed none False (createNode kind model).2 := by
  unfold createNode at failed ⊢
  cases formed : kind.checkArity with
  | error broken =>
      rw [Node.create_of_wrongArity formed]
      exact failed_self id
  | ok _ =>
      by_cases exhausted : model.uids.IsExhausted
      · rw [Node.create_of_isExhausted formed exhausted]
        exact ⟨rfl, rfl, UidSource.loses_of_isExhausted exhausted _⟩
      · rw [Node.create_of_remaining formed exhausted] at failed
        cases failed

variable [Scalar K]

/-- Every node of a live graph has a structural depth. -/
theorem depths_size_session (uids : UidSource) (requests : List (Request K)) {key : GraphId}
    {graph : Graph K} (live : (session { uids } requests).graphs.get? key = some graph) :
    graph.depths.size = graph.size := by
  induction requests using List.reverseRecOn generalizing graph with
  | nil => cases live
  | append_singleton requests request ih =>
      rw [session_concat] at live
      obtain ⟨earlier, before, grown⟩ | ⟨-, owner, rfl, -⟩ :=
        (step_perform _ request).graph_before live
      · exact grown.depths_size (ih before)
      · rfl

/-- A building step that fails leaves the model as it leaves the builder. -/
theorem failed_build {id : ProblemId} {inner : Builder.Request K}
    (measured : ∀ key graph, model.graphs.get? key = some graph → graph.depths.size = graph.size)
    (failed : ((Request.build id inner).perform model).1 = .error fault) :
    model.Failed none ((Request.build id inner).WastesUid model)
      ((Request.build id inner).perform model).2 := by
  simp only [Request.perform, Model.build] at failed ⊢
  cases found : model.problemWithGraph id with
  | error lost =>
      refine failed_self ?_
      rintro ⟨problem, graph, absurd, -⟩
      cases found.symm.trans absurd
  | ok pair =>
      obtain ⟨problem, graph⟩ := pair
      rw [found] at failed
      obtain ⟨live, liveGraph⟩ := problemWithGraph_eq_ok_iff.mp found
      have left := Builder.failed_perform (measured _ graph liveGraph) failed
      refine ⟨?_, ?_, ?_⟩
      · exact (congrArg _ left.problem_eq).trans (Arena.set_eq_self live)
      · exact (congrArg _ left.graph_eq).trans (Arena.set_eq_self liveGraph)
      · refine fun remaining => ⟨?_, fun spared => ?_⟩
        · rintro ⟨other, otherGraph, again, wasted⟩
          cases found.symm.trans again
          exact (left.uids remaining).1 wasted
        · exact (left.uids remaining).2 fun wasted => spared ⟨problem, graph, found, wasted⟩

/-- A request that fails leaves what it has to leave, whichever it is. -/
theorem failed_perform
    (measured : ∀ key graph, model.graphs.get? key = some graph → graph.depths.size = graph.size)
    {request : Request K} (failed : (request.perform model).1 = .error fault) :
    model.Failed (request.lostSlot? model) (request.WastesUid model) (request.perform model).2 := by
  cases request with
  | createProblem name => exact failed_createProblem (Outcome.eq_error_of_map failed)
  | createGraph => exact failed_createGraph (Outcome.eq_error_of_map failed)
  | removeProblem _ | removeGraph _ => exact failed_removal failed
  | createNode kind => exact failed_createNode (Outcome.eq_error_of_map failed)
  | insertNode key node =>
      refine failed_onGraph (fun graph broken refused => ?_) (Outcome.eq_error_of_map failed)
      exact Graph.insert_eq_error (Prod.ext refused rfl)
  | setDepth key idx depth =>
      refine failed_onGraph (fun graph broken refused => ?_) (Outcome.eq_error_of_map failed)
      exact Graph.setDepth_eq_error (Prod.ext refused rfl)
  | build id inner => exact failed_build measured failed

/-- Only when every index of a graph is taken is there no slot for another one. -/
theorem size_graphs_of_full (uids : UidSource) (requests : List (Request K))
    {broken : Violation}
    (full : (session { uids } requests).graphs.nextKey = .error broken) :
    (session { uids } requests).graphs.size = largestWord + 1 := by
  obtain ⟨history, recorded⟩ := exists_recorded uids requests
  obtain ⟨key, announced⟩ | ⟨-, size⟩ := recorded.agrees.wellFormed.nextKey_total
  · cases full.symm.trans announced
  · exact size

/-- **Failures are atomic.** After any requests of an empty model, a request that fails
leaves both arenas as they were, with every problem and every graph. The exception is a
request for a problem when there are `2 ^ 32` graphs: the slot that it has taken for the
problem stays vacant and is not among the free ones any more, although everything that can
be looked up is as before. As long as there are identities left, a request uses up one of
them if it gets one for a node that the graph then refuses, and otherwise none. -/
theorem session_failureAtomic {uids : UidSource} {requests : List (Request K)} {model : Model K}
    (reached : session { uids } requests = model) {request : Request K}
    (failed : (request.perform model).1 = .error fault) :
    (request.lostSlot? model = none → (request.perform model).2.problems = model.problems) ∧
    (∀ id, request.lostSlot? model = some id →
      (request.perform model).2.problems = model.problems.claim id ∧
      (∃ name, request = .createProblem name) ∧ model.graphs.size = largestWord + 1) ∧
    (∀ id, (request.perform model).2.problems.get? id = model.problems.get? id) ∧
    (request.perform model).2.problems.toList = model.problems.toList ∧
    (request.perform model).2.problems.size = model.problems.size ∧
    (request.perform model).2.graphs = model.graphs ∧
    (¬ model.uids.IsExhausted →
      (request.WastesUid model → (request.perform model).2.uids = model.uids.advance) ∧
      (¬ request.WastesUid model → (request.perform model).2.uids = model.uids)) := by
  subst reached
  have measured : ∀ key graph, (session { uids } requests).graphs.get? key = some graph →
      graph.depths.size = graph.size := fun key graph => depths_size_session uids requests
  have left := failed_perform measured failed
  obtain ⟨found, listed, counted⟩ :=
    left.problems_alike fun id lost => (Request.lostSlot?_eq_some lost).2.1
  refine ⟨fun kept => by rw [left.problems_eq, kept]; rfl, fun id lost => ?_, found, listed,
    counted, left.graphs_eq, left.uids⟩
  obtain ⟨created, -, broken, full⟩ := Request.lostSlot?_eq_some lost
  exact ⟨by rw [left.problems_eq, lost]; rfl, created, size_graphs_of_full uids requests full⟩

/-- An operator that is refused for want of its child. -/
def negationOfNothing : Request Float := .build ⟨0, 0⟩ (.operator .negation [0])

/-- The refused operator has cost one identity, and the model is as before. -/
theorem session_failureAtomic_negationOfNothing :
    ∃ broken, (negationOfNothing.perform (session {} [.createProblem "p"])).1 =
        .error (.violation broken) ∧
      (negationOfNothing.perform (session {} [.createProblem "p"])).2.uids = ⟨1⟩ := by
  have failed : (negationOfNothing.perform (session {} [.createProblem "p"])).1 =
      .error (.violation (.missingChild 0 ⟨0⟩ ⟨0, 0⟩)) := rfl
  have remaining : ¬ (session (K := Float) {} [.createProblem "p"]).uids.IsExhausted := by
    unfold UidSource.IsExhausted
    decide
  have wasted : negationOfNothing.WastesUid (session {} [.createProblem "p"]) :=
    ⟨_, _, rfl, rfl, .inr ⟨0, List.mem_singleton_self 0, Nat.le_refl 0⟩⟩
  obtain ⟨-, -, -, -, -, -, uids⟩ := session_failureAtomic rfl failed
  exact ⟨_, failed, (uids remaining).1 wasted⟩

/-- A problem with a number of constants in its graph. -/
def withConstants (count : Nat) : List (Request Float) :=
  .createProblem "p" :: List.replicate count (.build ⟨0, 0⟩ (.constant 1.0))

/-- The constants fit until every index is taken. -/
theorem session_withConstants (count : Nat) (fits : count ≤ 4294967296) :
    ∃ problem graph, (session {} (withConstants count)).problemWithGraph ⟨0, 0⟩ =
        .ok (problem, graph) ∧ graph.size = count ∧
      ¬ (session {} (withConstants count)).uids.IsExhausted ∧
      (session {} (withConstants count)).uids.upcoming.toNat = count := by
  have remaining : ∀ source : UidSource, source.upcoming.toNat ≤ 4294967296 →
      ¬ source.IsExhausted := by
    intro source small exhausted
    rw [UidSource.IsExhausted] at exhausted
    rw [exhausted] at small
    revert small
    decide
  suffices filled : ∃ problem graph,
      (session {} (withConstants count)).problemWithGraph ⟨0, 0⟩ = .ok (problem, graph) ∧
        graph.size = count ∧ (session {} (withConstants count)).uids.upcoming.toNat = count by
    obtain ⟨problem, graph, found, size, issued⟩ := filled
    exact ⟨problem, graph, found, size, remaining _ (by omega), issued⟩
  induction count with
  | zero => exact ⟨_, _, rfl, rfl, rfl⟩
  | succ count ih =>
      obtain ⟨problem, graph, found, size, issued⟩ := ih (by omega)
      obtain ⟨live, liveGraph⟩ := problemWithGraph_eq_ok_iff.mp found
      have unspent : ¬ (session {} (withConstants count)).uids.IsExhausted :=
        remaining _ (by omega)
      have room : ¬ graph.IsFull := by
        rw [Graph.IsFull, largestWord]
        omega
      obtain ⟨next, grown, added⟩ := Builder.constant_eq_ok
        { problem, graph, uids := (session {} (withConstants count)).uids }
        (depths_size_session {} _ liveGraph) unspent room (1.0 : Float)
      have concat : withConstants (count + 1) =
          withConstants count ++ [.build ⟨0, 0⟩ (.constant 1.0)] := by
        rw [withConstants, List.replicate_succ', ← List.cons_append]
        rfl
      rw [concat, session_concat]
      generalize session {} (withConstants count) = model at *
      simp only [Request.perform, Builder.Request.perform, Model.build, found, Builder.silent,
        added]
      refine ⟨problem, next, problemWithGraph_eq_ok_iff.mpr ⟨?_, ?_⟩, ?_, ?_⟩
      · rw [Arena.set_eq_self live, live]
      · rw [Arena.get?_set, if_pos rfl, liveGraph]
        rfl
      · rw [grown, size]
      · rw [UidSource.advance, UInt64.toNat_add, issued]
        have one : (1 : UInt64).toNat = 1 := rfl
        omega

/-- A constant that a full graph refuses has cost an identity. -/
theorem perform_constant_of_isFull {count : Nat} (full : count = 4294967296) :
    ((Request.build ⟨0, 0⟩ (.constant 1.0)).perform (session {} (withConstants count))).1 =
      .error (.violation (.positionTooLarge .graphNode)) ∧
    ((Request.build ⟨0, 0⟩ (.constant 1.0)).perform (session {} (withConstants count))).2.uids =
      (session {} (withConstants count)).uids.advance := by
  obtain ⟨problem, graph, found, size, remaining, -⟩ :=
    session_withConstants count (Nat.le_of_eq full)
  generalize session {} (withConstants count) = model at *
  have isFull : graph.IsFull := by
    rw [Graph.IsFull, largestWord]
    omega
  have refused := Builder.constant_of_isFull { problem, graph, uids := model.uids } remaining
    isFull (1.0 : Float)
  simp only [Request.perform, Builder.Request.perform, Model.build, found, Builder.silent, refused,
    Except.map, and_self]

/-- Graphs fit until every index is taken, and none of them takes the slot of a problem. -/
theorem session_replicate_createGraph (count : Nat) (fits : count ≤ 4294967296) :
    ∃ graphs : Arena .graph (Graph Float),
      session {} (List.replicate count .createGraph) = { graphs } ∧
        graphs.slots.size = count ∧ graphs.freeHead = none := by
  induction count with
  | zero => exact ⟨{}, rfl, rfl, rfl⟩
  | succ count ih =>
      obtain ⟨graphs, reached, size, unfreed⟩ := ih (by omega)
      have announced : graphs.nextKey = .ok ⟨graphs.slots.size, 0⟩ := by
        have room : graphs.slots.size ≤ largestWord := by
          rw [largestWord]
          omega
        rw [Arena.nextKey, unfreed]
        exact if_pos room
      rw [List.replicate_succ', session_concat, reached]
      refine ⟨graphs.occupy ⟨graphs.slots.size, 0⟩ { id := ⟨graphs.slots.size, 0⟩ }, ?_, ?_, ?_⟩
      · simp only [Request.perform, silent, createGraph, Arena.insertWith, announced]
        rfl
      · rw [Arena.occupy, Arena.fill, Array.size_setIfInBounds, Arena.size_slots_claim,
          if_neg (Nat.lt_irrefl _), size]
      · simp only [Arena.occupy, Arena.fill, Arena.claim, Arena.freeHeadAfter,
          Array.getElem?_eq_none (Nat.le_refl _)]

/-- A problem whose graph finds every index taken has taken a slot in vain. -/
theorem perform_createProblem_of_full {count : Nat} (full : count = 4294967296) :
    (session {} (List.replicate count (.createGraph : Request Float))).problems = {} ∧
    ((Request.createProblem "p").perform
      (session {} (List.replicate count (.createGraph : Request Float)))).1 =
        .error (.violation .arenaFull) ∧
    ((Request.createProblem "p").perform
      (session {} (List.replicate count (.createGraph : Request Float)))).2.problems =
        { slots := #[.vacant 0 none] } := by
  obtain ⟨graphs, reached, size, unfreed⟩ :=
    session_replicate_createGraph count (Nat.le_of_eq full)
  have refused : graphs.nextKey = .error .arenaFull := by
    have crowded : ¬ graphs.slots.size ≤ largestWord := by
      rw [largestWord]
      omega
    rw [Arena.nextKey, unfreed]
    exact if_neg crowded
  have answered : (Request.createProblem "p").perform ({ graphs } : Model Float) =
      (.error (.violation .arenaFull),
        { problems := { slots := #[.vacant 0 none] }, graphs }) := by
    simp only [Request.perform, silent, createProblem, Arena.insertWith, refused]
    rfl
  rw [reached, answered]
  exact ⟨rfl, rfl, rfl⟩

/-- **A missing child is not all that costs something.** A constant has no children. A full
graph refuses it when it has its identity. Where every identity has been issued, the refusal
itself moves the counter, back to the first identity. A problem for whose graph there is no
slot leaves one behind that is neither taken nor free. -/
theorem losses_of_exhaustion :
    (((Request.build ⟨0, 0⟩ (.constant 1.0)).perform (session {} (withConstants 4294967296))).1 =
        .error (.violation (.positionTooLarge .graphNode)) ∧
      ((Request.build ⟨0, 0⟩ (.constant 1.0)).perform
        (session {} (withConstants 4294967296))).2.uids =
          (session {} (withConstants 4294967296)).uids.advance) ∧
    (((Request.build ⟨0, 0⟩ (.constant (1.0 : Float))).perform
        (session { uids := ⟨18446744073709551615⟩ } [.createProblem "p"])).1 =
        .error (.violation .uidsExhausted) ∧
      ((Request.build ⟨0, 0⟩ (.constant (1.0 : Float))).perform
        (session { uids := ⟨18446744073709551615⟩ } [.createProblem "p"])).2.uids = ⟨0⟩) ∧
    ((session {} (List.replicate 4294967296 (.createGraph : Request Float))).problems = {} ∧
      ((Request.createProblem "p").perform
        (session {} (List.replicate 4294967296 (.createGraph : Request Float)))).1 =
          .error (.violation .arenaFull) ∧
      ((Request.createProblem "p").perform
        (session {} (List.replicate 4294967296 (.createGraph : Request Float)))).2.problems =
          { slots := #[.vacant 0 none] }) :=
  ⟨perform_constant_of_isFull rfl, ⟨rfl, rfl⟩, perform_createProblem_of_full rfl⟩

end Model

end MixedInteger
