import Mathlib.Data.List.Induction
import MixedInteger.Proofs.Identity.History
import MixedInteger.Proofs.Model.Requests
import MixedInteger.Scalar.Binary64

/-! # Ownership

Problems and graphs name each other by keys. A graph that names a problem is the
graph of that problem, whatever has happened (`Model.coherent_session`). A problem
may outlive its graph. As long as no slot of a graph has been freed `2 ^ 32` times,
the key that it is left with never resolves again, so no problem ever resolves to
the graph of another one (`Model.session_ownership`).
-/

namespace MixedInteger

namespace Arena

variable {kind : Kind} {α : Type} {arena : Arena kind α} {history : History kind α}

/-- A key that resolves has been issued. -/
theorem History.mem_issued_of_lookup {key : Key kind} {value : α}
    (resolved : history.lookup key = some value) : key ∈ history.issued := by
  induction history generalizing value key with
  | nil => cases resolved
  | cons event earlier ih =>
      cases event with
      | inserted other stored =>
          rw [lookup] at resolved
          rw [issued, List.mem_cons]
          split at resolved
          · rename_i same
            exact .inl same.symm
          · exact .inr (ih resolved)
      | written other stored =>
          rw [lookup] at resolved
          split at resolved
          · rename_i same
            subst same
            obtain ⟨old, resolved, -⟩ := Option.map_eq_some_iff.mp resolved
            exact ih resolved
          · exact ih resolved
      | removed other =>
          rw [lookup] at resolved
          split at resolved
          · cases resolved
          · exact ih resolved

/-- The removal of a key is recorded behind the others if the key was live. -/
theorem Agrees.removals_removed (agrees : arena.Agrees history) (key : Key kind) :
    (History.removals (.removed key :: history)).reverse =
      history.removals.reverse ++ ((some key).filter arena.contains).toList := by
  by_cases live : arena.contains key = true
  · have resolved : (history.lookup key).isSome = true := agrees.get?_eq key ▸ live
    rw [History.removals_removed_of_live resolved, List.reverse_cons, Option.filter_some, if_pos live]
    rfl
  · have stale : ¬ (history.lookup key).isSome = true := agrees.get?_eq key ▸ live
    rw [History.removals_removed_of_stale stale, Option.filter_some, if_neg live]
    exact (List.append_nil _).symm

/-- A key that is announced has not been issued before. -/
theorem Agrees.not_mem_issued (agrees : arena.Agrees history)
    (young : ∀ index, history.freed index < 2 ^ 32) {key : Key kind}
    (announced : arena.nextKey = .ok key) (value : α) : key ∉ history.issued := by
  have distinct := (agrees.occupy announced value).issued_nodup young
  exact (List.nodup_cons.mp distinct).1

end Arena

namespace Model

variable {K : Type} [Scalar K] {model next : Model K} {request : Request K}

/-! ## Keys that point at each other -/

/-- Problems and graphs are stored under the keys that they carry, and a graph that
names a problem is the graph of that problem. -/
structure Coherent (model : Model K) : Prop where
  problem_id : ∀ id problem, model.problems.get? id = some problem → problem.id = id
  graph_id : ∀ key graph, model.graphs.get? key = some graph → graph.id = key
  owner : ∀ key graph id, model.graphs.get? key = some graph → graph.problem = some id →
    ∃ problem, model.problems.get? id = some problem ∧ problem.graph = key

/-- A request keeps keys that point at each other. -/
theorem Coherent.step (coherent : model.Coherent) (step : model.Step request next) :
    next.Coherent where
  problem_id id problem live := by
    obtain ⟨earlier, before, same, -⟩ | ⟨-, created, -⟩ := step.problem_before live
    · exact same.trans (coherent.problem_id id earlier before)
    · exact created
  graph_id key graph live := by
    obtain ⟨earlier, before, grown⟩ | ⟨-, owner, rfl, -⟩ := step.graph_before live
    · exact grown.owner_eq.1.trans (coherent.graph_id key earlier before)
    · rfl
  owner key graph id live named := by
    obtain ⟨earlier, before, grown⟩ | ⟨-, owner, rfl, created⟩ := step.graph_before live
    · rw [grown.owner_eq.2] at named
      obtain ⟨problem, liveProblem, rfl⟩ := coherent.owner key earlier id before named
      obtain ⟨later, after, same⟩ | ⟨-, gone⟩ := step.problem_after liveProblem
      · exact ⟨later, after, same⟩
      · cases gone.symm.trans live
    · exact created id named

/-- After any requests the keys of a model point at each other. -/
theorem coherent_session (uids : UidSource) (requests : List (Request K)) :
    (session { uids } requests).Coherent := by
  induction requests using List.reverseRecOn with
  | nil => exact ⟨nofun, nofun, nofun⟩
  | append_singleton requests request ih =>
      rw [session_concat]
      exact ih.step (step_perform _ request)

/-! ## The graphs that have been freed -/

/-- What the freed graphs say about the history of the arena that holds the graphs. -/
structure Recorded (model : Model K) (history : Arena.History .graph (Graph K))
    (freed : List GraphId) : Prop where
  agrees : model.graphs.Agrees history
  removals : history.removals.reverse = freed
  issued : ∀ id problem, model.problems.get? id = some problem → problem.graph ∈ history.issued

/-- A request adds to the history of the graphs, and frees what it says it frees. -/
theorem Step.exists_history {history : Arena.History .graph (Graph K)}
    (agrees : model.graphs.Agrees history) (step : model.Step request next) :
    ∃ later : Arena.History .graph (Graph K), next.graphs.Agrees later ∧
      later.removals.reverse =
        history.removals.reverse ++ (request.freedGraph? model).toList ∧
      history.issued ⊆ later.issued := by
  cases step with
  | keep uids nothing => exact ⟨history, agrees, by simp [nothing], List.Subset.refl _⟩
  | loseSlot => exact ⟨history, agrees, (List.append_nil _).symm, List.Subset.refl _⟩
  | createProblem _ announced =>
      exact ⟨_, agrees.occupy announced _, (List.append_nil _).symm, List.subset_cons_self _ _⟩
  | createGraph announced =>
      exact ⟨_, agrees.occupy announced _, (List.append_nil _).symm, List.subset_cons_self _ _⟩
  | removeProblem live =>
      refine ⟨_, agrees.erase _, ?_, List.Subset.refl _⟩
      rw [agrees.removals_removed, Request.freedGraph?, Request.removedGraph?, live]
      rfl
  | removeGraph live =>
      exact ⟨_, agrees.erase _, agrees.removals_removed _, List.Subset.refl _⟩
  | change _ nothing _ _ => exact ⟨_, agrees.set _ _, by simp [nothing, Arena.History.removals],
      List.Subset.refl _⟩
  | build _ _ _ => exact ⟨_, agrees.set _ _, (List.append_nil _).symm, List.Subset.refl _⟩

/-- A request keeps the record of the freed graphs. -/
theorem Recorded.step {history : Arena.History .graph (Graph K)} {freed : List GraphId}
    (recorded : model.Recorded history freed) (step : model.Step request next) :
    ∃ later, next.Recorded later (freed ++ (request.freedGraph? model).toList) := by
  obtain ⟨later, agrees, removals, issued⟩ := step.exists_history recorded.agrees
  refine ⟨later, agrees, by rw [removals, recorded.removals], fun id problem live => ?_⟩
  obtain ⟨earlier, before, -, same⟩ | ⟨-, -, created⟩ := step.problem_before live
  · exact same ▸ issued (recorded.issued id earlier before)
  · exact Arena.History.mem_issued_of_lookup (agrees.get?_eq _ ▸ created)

/-- After any requests there is a record of the freed graphs. -/
theorem exists_recorded (uids : UidSource) (requests : List (Request K)) :
    ∃ history,
      (session { uids } requests).Recorded history (freedGraphs { uids } requests) := by
  induction requests using List.reverseRecOn with
  | nil => exact ⟨[], Arena.agrees_empty, rfl, nofun⟩
  | append_singleton requests request ih =>
      obtain ⟨history, recorded⟩ := ih
      rw [session_concat, freedGraphs_concat]
      exact recorded.step (step_perform _ request)

/-- No slot of a graph has been freed `2 ^ 32` times. -/
def IsYoung (model : Model K) (requests : List (Request K)) : Prop :=
  ∀ index, (model.freedGraphs requests).countP (·.index = index) < 2 ^ 32

/-- What has not wrapped around in the end had not wrapped around before. -/
theorem IsYoung.of_append {requests later : List (Request K)}
    (young : model.IsYoung (requests ++ later)) : model.IsYoung requests := by
  intro index
  have young := young index
  rw [freedGraphs_append, List.countP_append] at young
  exact Nat.lt_of_le_of_lt (Nat.le_add_right _ _) young

/-- The record counts how often a slot was freed. -/
theorem Recorded.freed_lt {uids : UidSource} {requests : List (Request K)}
    {history : Arena.History .graph (Graph K)}
    (recorded : model.Recorded history (freedGraphs { uids } requests))
    (young : IsYoung { uids } requests) (index : Nat) : history.freed index < 2 ^ 32 := by
  have young := young index
  rwa [← recorded.removals, List.countP_reverse] at young

/-- The key of a freed graph never resolves again. -/
theorem get?_of_mem_freedGraphs {uids : UidSource} {requests : List (Request K)}
    (young : IsYoung { uids } requests) {key : GraphId}
    (freed : key ∈ freedGraphs { uids } requests) :
    (session { uids } requests).graphs.get? key = none := by
  obtain ⟨history, recorded⟩ := exists_recorded uids requests
  rw [← recorded.removals, List.mem_reverse] at freed
  exact recorded.agrees.get?_of_removed (recorded.freed_lt young) freed

/-! ## Every problem has a graph of its own -/

/-- No problem resolves to a graph of another one, and no two share a key. -/
structure Owned (model : Model K) : Prop where
  own : ∀ id problem graph, model.problems.get? id = some problem →
    model.graphs.get? problem.graph = some graph → graph.problem = some id
  unshared : ∀ first second problem other, model.problems.get? first = some problem →
    model.problems.get? second = some other → problem.graph = other.graph → first = second

/-- A request keeps every problem in possession of its graph if a new graph gets a key that no
problem holds. -/
theorem Owned.step (owned : model.Owned) (step : model.Step request next)
    (fresh : ∀ key, model.graphs.nextKey = .ok key →
      ∀ id problem, model.problems.get? id = some problem → problem.graph ≠ key) :
    next.Owned where
  own id problem graph live liveGraph := by
    obtain ⟨earlier, before, -, same⟩ | ⟨-, -, created⟩ := step.problem_before live
    · obtain ⟨smaller, graphBefore, grown⟩ | ⟨announced, -⟩ := step.graph_before liveGraph
      · rw [grown.owner_eq.2]
        exact owned.own id earlier smaller before (same ▸ graphBefore)
      · exact absurd same.symm (fresh _ announced id earlier before)
    · cases created.symm.trans liveGraph
      rfl
  unshared first second problem other live liveOther shared := by
    obtain ⟨earlier, before, -, same⟩ | ⟨announced, -, created⟩ := step.problem_before live
    · obtain ⟨earlierOther, beforeOther, -, sameOther⟩ | ⟨announced, -, -⟩ :=
        step.problem_before liveOther
      · exact owned.unshared first second earlier earlierOther before beforeOther
          (same.symm.trans (shared.trans sameOther))
      · exact absurd (same.symm.trans shared) (fresh _ announced first earlier before)
    · obtain ⟨earlierOther, beforeOther, -, sameOther⟩ | ⟨-, -, createdOther⟩ :=
        step.problem_before liveOther
      · exact absurd (sameOther.symm.trans shared.symm)
          (fresh _ announced second earlierOther beforeOther)
      · rw [← shared, created] at createdOther
        cases createdOther
        rfl

/-- While no slot has wrapped around, every problem has a graph of its own. -/
theorem owned_session {uids : UidSource} {requests : List (Request K)}
    (young : IsYoung { uids } requests) : (session { uids } requests).Owned := by
  induction requests using List.reverseRecOn with
  | nil => exact ⟨nofun, nofun⟩
  | append_singleton requests request ih =>
      obtain ⟨history, recorded⟩ := exists_recorded uids requests
      have young := young.of_append
      rw [session_concat]
      refine (ih young).step (step_perform _ request) fun key announced id problem live same => ?_
      have issued := recorded.issued id problem live
      rw [same] at issued
      exact recorded.agrees.not_mem_issued (recorded.freed_lt young) announced { id := key } issued

/-! ## Graphs that their problems outlive -/

/-- The graph of a problem was removed, and not together with the problem. -/
def WasRemoved (uids : UidSource) (requests : List (Request K)) (id : ProblemId)
    (key : GraphId) : Prop :=
  ∃ before after graph, requests = before ++ .removeGraph key :: after ∧
    (session { uids } before).graphs.get? key = some graph ∧ graph.problem = some id

/-- What was removed stays removed. -/
theorem WasRemoved.append {uids : UidSource} {requests : List (Request K)} {id : ProblemId}
    {key : GraphId} (removed : WasRemoved uids requests id key) (later : List (Request K)) :
    WasRemoved uids (requests ++ later) id key := by
  obtain ⟨before, after, graph, rfl, live, own⟩ := removed
  exact ⟨before, after ++ later, graph, by rw [List.append_assoc, List.cons_append], live, own⟩

/-- A graph that was removed is among those that were freed. -/
theorem WasRemoved.mem_freedGraphs {uids : UidSource} {requests : List (Request K)}
    {id : ProblemId} {key : GraphId} (removed : WasRemoved uids requests id key) :
    key ∈ freedGraphs { uids } requests := by
  obtain ⟨before, after, graph, rfl, live, -⟩ := removed
  have freed : (Request.removeGraph key).freedGraph? (session { uids } before) = some key := by
    simp [Request.freedGraph?, Request.removedGraph?, Arena.contains, live]
  rw [freedGraphs_append, freedGraphs, freed]
  exact List.mem_append_right _ List.mem_cons_self

/-- Only a removal of the graph itself leaves a problem without its graph. -/
theorem wasRemoved_of_unresolved {uids : UidSource} {requests : List (Request K)}
    (young : IsYoung { uids } requests) {id : ProblemId} {problem : Problem K}
    (live : (session { uids } requests).problems.get? id = some problem)
    (unresolved : (session { uids } requests).graphs.get? problem.graph = none) :
    WasRemoved uids requests id problem.graph := by
  induction requests using List.reverseRecOn generalizing problem with
  | nil => cases live
  | append_singleton requests request ih =>
      have owned := owned_session young.of_append
      have step := step_perform (session { uids } requests) request
      rw [session_concat] at live unresolved
      obtain ⟨earlier, before, -, same⟩ | ⟨-, -, created⟩ := step.problem_before live
      · rw [same] at unresolved ⊢
        cases resolved : (session { uids } requests).graphs.get? earlier.graph with
        | none => exact (ih young.of_append before resolved).append [request]
        | some graph =>
            have own := owned.own id earlier graph before resolved
            obtain ⟨later, after, -⟩ | removed := step.graph_after resolved
            · cases unresolved.symm.trans after
            · cases request with
              | removeGraph key =>
                  cases removed
                  exact ⟨requests, [], graph, rfl, resolved, own⟩
              | removeProblem other =>
                  obtain ⟨gone, liveGone, shared⟩ := Option.map_eq_some_iff.mp removed
                  obtain rfl := owned.unshared other id gone earlier liveGone before shared
                  simp only [Request.perform, removal, removeProblem_eq _ liveGone,
                    Arena.get?_erase, ↓reduceIte] at live
                  cases live
              | createProblem | createGraph | createNode | insertNode | setDepth | build =>
                  cases removed
      · cases created.symm.trans unresolved

/-- **Problems and graphs stay coherent.** After any requests of an empty model, as long
as no slot of a graph has been freed `2 ^ 32` times: every live problem is stored under
its own key. The key of its graph resolves to a graph that names the problem, or that
graph was removed and the key never resolves again. Every live graph that names a
problem is the graph of that problem, which is live. No two live problems share a
graph. Removing a problem frees the problem and its graph, and nothing else. -/
theorem session_ownership {uids : UidSource} {requests : List (Request K)}
    (young : IsYoung { uids } requests) {model : Model K}
    (reached : session { uids } requests = model) :
    (∀ id problem, model.problems.get? id = some problem →
      problem.id = id ∧
      ((∃ graph, model.graphs.get? problem.graph = some graph ∧ graph.problem = some id) ∨
        WasRemoved uids requests id problem.graph ∧
          ∀ later, IsYoung { uids } (requests ++ later) →
            (session { uids } (requests ++ later)).graphs.get? problem.graph = none)) ∧
    (∀ key graph id, model.graphs.get? key = some graph → graph.problem = some id →
      ∃ problem, model.problems.get? id = some problem ∧ problem.graph = key) ∧
    (∀ first second problem other, model.problems.get? first = some problem →
      model.problems.get? second = some other → problem.graph = other.graph → first = second) ∧
    ∀ id problem, model.problems.get? id = some problem →
      ∃ next, model.removeProblem id = .ok next ∧
        (∀ other, next.problems.get? other =
          if id = other then none else model.problems.get? other) ∧
        ∀ key, next.graphs.get? key =
          if problem.graph = key then none else model.graphs.get? key := by
  subst reached
  have coherent := coherent_session uids requests
  have owned := owned_session young
  refine ⟨fun id problem live => ⟨coherent.problem_id id problem live, ?_⟩, coherent.owner,
    owned.unshared, fun id problem live => ?_⟩
  · cases resolved : (session { uids } requests).graphs.get? problem.graph with
    | some graph => exact .inl ⟨graph, rfl, owned.own id problem graph live resolved⟩
    | none =>
        have removed := wasRemoved_of_unresolved young live resolved
        exact .inr ⟨removed, fun later young =>
          get?_of_mem_freedGraphs young (removed.append later).mem_freedGraphs⟩
  · exact ⟨_, removeProblem_eq _ live, Arena.get?_erase _ id, Arena.get?_erase _ problem.graph⟩

/-- The first of two problems loses its graph, whose slot is taken by another graph. -/
def reusedSlot : List (Request Float) :=
  [.createProblem "p", .createProblem "q", .removeGraph ⟨0, 0⟩, .createGraph]

/-- The problem that has lost its graph is removed, and the graph in the slot stays. -/
theorem session_ownership_reusedSlot :
    (session { uids := {} } reusedSlot).graphs.get? ⟨0, 1⟩ = some { id := ⟨0, 1⟩ } ∧
      WasRemoved {} reusedSlot ⟨0, 0⟩ ⟨0, 0⟩ ∧
      ∃ next, (session { uids := {} } reusedSlot).removeProblem ⟨0, 0⟩ = .ok next ∧
        next.graphs.get? ⟨0, 1⟩ = some { id := ⟨0, 1⟩ } := by
  have freed : freedGraphs { uids := {} } reusedSlot = [⟨0, 0⟩] := rfl
  have young : IsYoung { uids := {} } reusedSlot := by
    intro index
    rw [freed]
    exact Nat.lt_of_le_of_lt List.countP_le_length (by decide)
  have live : (session { uids := {} } reusedSlot).problems.get? ⟨0, 0⟩ =
      some { id := ⟨0, 0⟩, name := "p", graph := ⟨0, 0⟩ } := rfl
  have reused : (session { uids := {} } reusedSlot).graphs.get? ⟨0, 1⟩ =
      some { id := ⟨0, 1⟩ } := rfl
  obtain ⟨problems, -, -, removal⟩ := session_ownership young rfl
  obtain ⟨-, ⟨graph, resolved, -⟩ | ⟨removed, -⟩⟩ := problems _ _ live
  · cases resolved
  · obtain ⟨next, done, -, graphs⟩ := removal _ _ live
    exact ⟨reused, removed, next, done, (graphs ⟨0, 1⟩).trans reused⟩

end Model

end MixedInteger
