import Mathlib.Data.List.Induction
import Mathlib.Data.List.Nodup
import MixedInteger.Proofs.Outcome
import MixedInteger.Telemetry.Announcement

/-! # Histories of search trees

Which nodes of a search tree have been added and which have been pruned is all
that a tracker remembers. Its answers and the states it gives to coordinates
follow from the changes it has accepted, and what it has rejected leaves no
trace (`Tracker.session_obeys_history`).
-/

namespace MixedInteger

namespace Coordinate

/-- The parent of a child is the coordinate it branches from. -/
theorem parent?_child (above : Coordinate) (branch : UInt32) :
    (above.child branch).parent? = some above := by
  simp [parent?, isRoot, child]

/-- The coordinate above another one is the one that it is a child of. -/
theorem parent?_eq_some_iff {coordinate above : Coordinate} :
    coordinate.parent? = some above ↔ ∃ branch, coordinate = above.child branch := by
  constructor
  · intro found
    obtain ⟨path⟩ := coordinate
    rcases List.eq_nil_or_concat path with rfl | ⟨front, last, rfl⟩
    · cases found
    · rw [List.concat_eq_append] at found ⊢
      have known := parent?_child ⟨front⟩ last
      obtain rfl : ⟨front⟩ = above := Option.some.inj (known.symm.trans found)
      exact ⟨last, rfl⟩
  · rintro ⟨branch, rfl⟩
    exact parent?_child above branch

end Coordinate

namespace Tracker

/-- A change of the search tree. -/
inductive Change where
  | added (coordinate : Coordinate)
  | pruned (coordinate : Coordinate)
  deriving DecidableEq

/-- What a caller may ask of a tracker. -/
inductive Request where
  | add (coordinate : Coordinate)
  | prune (coordinate : Coordinate)
  | apply (payload : Payload)

namespace Request

/-- The tracker that a request leaves, or why it is refused. -/
def outcome (tracker : Tracker) : Request → Except ProtocolError Tracker
  | add coordinate => tracker.add coordinate
  | prune coordinate => tracker.prune coordinate
  | apply payload => tracker.apply payload

/-- The change that a request asks for, if there is one. -/
def change? : Request → Option Change
  | add coordinate => some (.added coordinate)
  | prune coordinate => some (.pruned coordinate)
  | apply (.addNode body) => some (.added body.coordinate)
  | apply (.pruneNode body) => some (.pruned body.coordinate)
  | apply _ => none

end Request

/-- The request that asks for a change directly. -/
def Change.request : Change → Request
  | .added coordinate => .add coordinate
  | .pruned coordinate => .prune coordinate

/-- A request brings about the change that it asks for, or nothing. -/
theorem Request.outcome_eq (tracker : Tracker) (request : Request) :
    request.outcome tracker =
      match request.change? with
      | some change => change.request.outcome tracker
      | none => .ok tracker := by
  cases request with
  | add coordinate | prune coordinate => rfl
  | apply payload => cases payload <;> rfl

/-- The accepted changes, the latest first. -/
abbrev History := List Change

/-- The state that accepted changes give to a coordinate. -/
def History.state? (history : History) (coordinate : Coordinate) : Option NodeState :=
  if .pruned coordinate ∈ history then some .pruned
  else if .added coordinate ∈ history then some .opened
  else none

/-- One request of a tracker with its history. A rejected request changes nothing. -/
def answer (recorded : History × Tracker) (request : Request) : History × Tracker :=
  match request.outcome recorded.2 with
  | .ok next => (request.change?.toList ++ recorded.1, next)
  | .error _ => recorded

/-- The history and the tracker after requests of an empty tracker. -/
def session (requests : List Request) : History × Tracker := requests.foldl answer ([], {})

/-- An outcome without the tracker that it may leave. -/
def verdict (outcome : Except ProtocolError Tracker) : Except ProtocolError Unit :=
  outcome.map fun _ => ()

variable {tracker next : Tracker} {history : History} {coordinate : Coordinate}

/-- An addition is refused as its check says. -/
theorem verdict_add (tracker : Tracker) (coordinate : Coordinate) :
    verdict (tracker.add coordinate) = tracker.checkAdd coordinate := by
  unfold add
  cases tracker.checkAdd coordinate <;> rfl

/-- A pruning is refused as its check says. -/
theorem verdict_prune (tracker : Tracker) (coordinate : Coordinate) :
    verdict (tracker.prune coordinate) = tracker.checkPrune coordinate := by
  unfold prune
  cases tracker.checkPrune coordinate <;> rfl

/-- A check answers what applying the payload would answer. -/
theorem verdict_apply (tracker : Tracker) (payload : Payload) :
    verdict (tracker.apply payload) = tracker.check payload := by
  cases payload with
  | addNode body => exact verdict_add tracker body.coordinate
  | pruneNode body => exact verdict_prune tracker body.coordinate
  | text _ | tensor _ | solveStart _ | solveEnd _ | updateVariable _ => rfl

/-- A payload that passes its check can be applied. -/
theorem exists_apply_of_check {payload : Payload} (checked : tracker.check payload = .ok ()) :
    ∃ next, tracker.apply payload = .ok next := by
  rw [← verdict_apply] at checked
  cases applied : tracker.apply payload with
  | ok next => exact ⟨next, rfl⟩
  | error error =>
      rw [applied] at checked
      cases checked

/-! ## What the operations do -/

/-- Recording a state changes one coordinate. -/
theorem state?_insert (tracker : Tracker) (coordinate : Coordinate) (state : NodeState)
    (count : Nat) (query : Coordinate) :
    state? ⟨tracker.nodes.insert coordinate state, count⟩ query =
      if query = coordinate then some state else tracker.state? query := by
  unfold state?
  rw [Std.ExtTreeMap.getElem?_insert]
  by_cases same : query = coordinate
  · rw [if_pos same, if_pos (Coordinate.compare_eq_eq_iff.mpr same.symm)]
  · rw [if_neg same, if_neg fun equal => same (Coordinate.compare_eq_eq_iff.mp equal).symm]

/-- An addition is accepted for a new coordinate, which is open from then on. -/
theorem add_eq_ok (accepted : tracker.add coordinate = .ok next) :
    tracker.state? coordinate = none ∧
      ∀ query, next.state? query =
        if query = coordinate then some .opened else tracker.state? query := by
  obtain ⟨⟨⟩, checked, accepted⟩ := Outcome.bind_eq_ok_iff.mp accepted
  cases accepted
  refine ⟨?_, state?_insert tracker coordinate .opened _⟩
  unfold checkAdd at checked
  split at checked
  · cases checked
  · rename_i new
    simpa using new

/-- A prune is accepted for an open coordinate, which is pruned from then on. -/
theorem prune_eq_ok (accepted : tracker.prune coordinate = .ok next) :
    tracker.state? coordinate = some .opened ∧
      ∀ query, next.state? query =
        if query = coordinate then some .pruned else tracker.state? query := by
  obtain ⟨⟨⟩, checked, accepted⟩ := Outcome.bind_eq_ok_iff.mp accepted
  cases accepted
  refine ⟨?_, state?_insert tracker coordinate .pruned _⟩
  unfold checkPrune at checked
  split at checked
  · cases checked
  · cases checked
  · assumption

/-- What a tracker owes to the changes it has accepted. -/
structure Agrees (tracker : Tracker) (history : History) : Prop where
  state?_eq : ∀ coordinate, tracker.state? coordinate = history.state? coordinate
  nodup : history.Nodup
  added_of_pruned : ∀ {coordinate earlier later},
    history = later ++ .pruned coordinate :: earlier → .added coordinate ∈ earlier

namespace Agrees

/-- A coordinate that was pruned was added before. -/
theorem added_of_mem (agrees : tracker.Agrees history) (pruned : .pruned coordinate ∈ history) :
    .added coordinate ∈ history := by
  obtain ⟨later, earlier, split⟩ := List.append_of_mem pruned
  rw [split]
  exact List.mem_append_right later
    (List.mem_cons_of_mem _ (agrees.added_of_pruned split))

/-- A coordinate was pruned exactly when its state says so. -/
theorem pruned_iff (agrees : tracker.Agrees history) :
    .pruned coordinate ∈ history ↔ tracker.state? coordinate = some .pruned := by
  rw [agrees.state?_eq, History.state?]
  by_cases pruned : .pruned coordinate ∈ history
  · simp only [pruned, ↓reduceIte]
  · by_cases added : .added coordinate ∈ history <;> simp [pruned, added]

/-- A coordinate was added exactly when it has a state. -/
theorem added_iff (agrees : tracker.Agrees history) :
    .added coordinate ∈ history ↔ (tracker.state? coordinate).isSome = true := by
  rw [agrees.state?_eq, History.state?]
  by_cases pruned : .pruned coordinate ∈ history
  · simp only [pruned, ↓reduceIte, agrees.added_of_mem pruned, Option.isSome_some]
  · by_cases added : .added coordinate ∈ history <;> simp [pruned, added]

/-- An empty tracker agrees with the empty history. -/
theorem empty : ({} : Tracker).Agrees [] where
  state?_eq _ := Std.ExtTreeMap.getElem?_empty
  nodup := List.nodup_nil
  added_of_pruned split := absurd split (by simp)

/-- An accepted change keeps the agreement when it is new, when it gives its coordinate
the state that the tracker has then, and when a prune follows an addition. -/
theorem cons (agrees : tracker.Agrees history) {change : Change} (new : change ∉ history)
    (state : ∀ query, next.state? query = History.state? (change :: history) query)
    (added : ∀ coordinate, change = .pruned coordinate → .added coordinate ∈ history) :
    next.Agrees (change :: history) where
  state?_eq := state
  nodup := List.nodup_cons.mpr ⟨new, agrees.nodup⟩
  added_of_pruned {coordinate earlier later} split := by
    cases later with
    | nil =>
        obtain ⟨same, rfl⟩ := List.cons.inj split
        exact added coordinate same
    | cons last later =>
        exact agrees.added_of_pruned (List.cons.inj split).2

/-- An accepted addition keeps a tracker in agreement with its history. -/
theorem add (agrees : tracker.Agrees history) (accepted : tracker.add coordinate = .ok next) :
    next.Agrees (.added coordinate :: history) := by
  obtain ⟨absent, states⟩ := add_eq_ok accepted
  have notAdded : .added coordinate ∉ history := by
    rw [agrees.added_iff, absent]
    exact Bool.false_ne_true
  have notPruned : .pruned coordinate ∉ history := fun pruned =>
    notAdded (agrees.added_of_mem pruned)
  refine agrees.cons notAdded (fun query => ?_) nofun
  rw [states, agrees.state?_eq]
  by_cases same : query = coordinate
  · subst same
    simp [History.state?, notPruned]
  · simp [History.state?, same]

/-- An accepted pruning keeps a tracker in agreement with its history. -/
theorem prune (agrees : tracker.Agrees history)
    (accepted : tracker.prune coordinate = .ok next) :
    next.Agrees (.pruned coordinate :: history) := by
  obtain ⟨opened, states⟩ := prune_eq_ok accepted
  have notPruned : .pruned coordinate ∉ history := by
    rw [agrees.pruned_iff, opened]
    exact nofun
  have added : .added coordinate ∈ history := by
    rw [agrees.added_iff, opened]
    rfl
  refine agrees.cons notPruned (fun query => ?_) ?_
  · rw [states, agrees.state?_eq]
    by_cases same : query = coordinate
    · subst same
      simp [History.state?]
    · simp [History.state?, same]
  · rintro query ⟨⟩
    exact added

end Agrees

/-- A request that asks for a change is answered like the change alone. -/
theorem answer_of_change {recorded : History × Tracker} {request : Request} {change : Change}
    (asks : request.change? = some change) :
    answer recorded request = answer recorded change.request := by
  have same : change.request.change? = some change := by cases change <;> rfl
  rw [answer, answer, request.outcome_eq, asks, same]

/-- A request that asks for no change changes nothing. -/
theorem answer_of_no_change {recorded : History × Tracker} {request : Request}
    (asks : request.change? = none) : answer recorded request = recorded := by
  rw [answer, request.outcome_eq, asks]
  rfl

/-- The last of the requests is answered by what the others have left. -/
theorem session_concat (requests : List Request) (request : Request) :
    session (requests ++ [request]) = answer (session requests) request := by
  rw [session, List.foldl_append]
  rfl

/-- An answer keeps the agreement. -/
theorem Agrees.answer {recorded : History × Tracker} (agrees : recorded.2.Agrees recorded.1)
    (request : Request) :
    (answer recorded request).2.Agrees (answer recorded request).1 := by
  cases asks : request.change? with
  | none => rwa [answer_of_no_change asks]
  | some change =>
      rw [answer_of_change asks, Tracker.answer]
      cases accepted : change.request.outcome recorded.2 with
      | error error => exact agrees
      | ok next =>
          cases change with
          | added coordinate => exact agrees.add accepted
          | pruned coordinate => exact agrees.prune accepted

/-- A tracker that starts empty agrees with the changes it has accepted. -/
theorem session_agrees (requests : List Request) :
    (session requests).2.Agrees (session requests).1 := by
  induction requests using List.reverseRecOn with
  | nil => exact Agrees.empty
  | append_singleton requests request ih =>
      rw [session_concat]
      exact ih.answer request

/-! ## What the answers follow from -/

/-- Whether a tracker answers as the accepted changes call for. -/
structure Obeys (tracker : Tracker) (history : History) : Prop where
  add_known : ∀ coordinate, .added coordinate ∈ history →
    verdict (tracker.add coordinate) = .error (.duplicateNode coordinate)
  add_orphan : ∀ above branch, .added (Coordinate.child above branch) ∉ history →
    .added above ∉ history →
      verdict (tracker.add (above.child branch)) = .error (.orphanNode (above.child branch))
  /-- The root lies below nothing. -/
  add_new : ∀ coordinate, .added coordinate ∉ history →
    (∀ above branch, coordinate = Coordinate.child above branch → .added above ∈ history) →
      verdict (tracker.add coordinate) = .ok ()
  prune_unknown : ∀ coordinate, .added coordinate ∉ history →
    verdict (tracker.prune coordinate) = .error (.unknownNode coordinate)
  prune_again : ∀ coordinate, .pruned coordinate ∈ history →
    verdict (tracker.prune coordinate) = .error (.alreadyPruned coordinate)
  prune_open : ∀ coordinate, .added coordinate ∈ history → .pruned coordinate ∉ history →
    verdict (tracker.prune coordinate) = .ok ()
  state?_eq : ∀ coordinate, tracker.state? coordinate = history.state? coordinate

/-- A coordinate with a state is a duplicate. -/
theorem checkAdd_of_isSome (known : (tracker.state? coordinate).isSome = true) :
    tracker.checkAdd coordinate = .error (.duplicateNode coordinate) := by
  rw [checkAdd, if_pos known]

/-- A new coordinate without its parent is an orphan. -/
theorem checkAdd_of_orphan {above : Coordinate}
    (new : ¬ (tracker.state? coordinate).isSome = true) (below : coordinate.parent? = some above)
    (missing : ¬ (tracker.state? above).isSome = true) :
    tracker.checkAdd coordinate = .error (.orphanNode coordinate) := by
  rw [checkAdd, if_neg new, below, if_pos]
  simpa using missing

/-- A new coordinate whose parent is there may be added. -/
theorem checkAdd_of_new (new : ¬ (tracker.state? coordinate).isSome = true)
    (present : ∀ above, coordinate.parent? = some above →
      (tracker.state? above).isSome = true) :
    tracker.checkAdd coordinate = .ok () := by
  rw [checkAdd, if_neg new, if_neg]
  cases parent : coordinate.parent? with
  | none => exact Bool.false_ne_true
  | some above =>
      simpa [Option.isSome_iff_ne_none] using present above parent

/-- A tracker that agrees with its history answers by the history. -/
theorem Agrees.obeys (agrees : tracker.Agrees history) : tracker.Obeys history where
  add_known coordinate added := by
    rw [verdict_add, checkAdd_of_isSome (agrees.added_iff.mp added)]
  add_orphan above branch new missing := by
    rw [agrees.added_iff] at new missing
    rw [verdict_add, checkAdd_of_orphan new (Coordinate.parent?_child above branch) missing]
  add_new coordinate new present := by
    rw [agrees.added_iff] at new
    rw [verdict_add, checkAdd_of_new new fun above parent => ?_]
    obtain ⟨branch, below⟩ := Coordinate.parent?_eq_some_iff.mp parent
    exact agrees.added_iff.mp (present above branch below)
  prune_unknown coordinate absent := by
    rw [agrees.added_iff, Option.not_isSome_iff_eq_none] at absent
    rw [verdict_prune, checkPrune, absent]
  prune_again coordinate pruned := by
    rw [verdict_prune, checkPrune, agrees.pruned_iff.mp pruned]
  prune_open coordinate added notPruned := by
    have opened : tracker.state? coordinate = some .opened := by
      rw [agrees.state?_eq, History.state?, if_neg notPruned, if_pos added]
    rw [verdict_prune, checkPrune, opened]
  state?_eq := agrees.state?_eq

/-- How far a node has come. -/
def progress : Option NodeState → Nat
  | none => 0
  | some .opened => 1
  | some .pruned => 2

/-- Further changes do not set a node back. -/
theorem progress_le_of_suffix {earlier later : History} (suffix : earlier <:+ later) :
    progress (earlier.state? coordinate) ≤ progress (later.state? coordinate) := by
  have kept {change : Change} (member : change ∈ earlier) : change ∈ later := suffix.subset member
  unfold History.state?
  by_cases pruned : .pruned coordinate ∈ earlier
  · exact Nat.le_of_eq (by rw [if_pos pruned, if_pos (kept pruned)])
  · rw [if_neg pruned]
    by_cases added : .added coordinate ∈ earlier
    · rw [if_pos added, if_pos (kept added)]
      split <;> decide
    · rw [if_neg added]
      exact Nat.zero_le _

/-- An answer keeps the history and may add to it. -/
theorem suffix_answer (recorded : History × Tracker) (request : Request) :
    recorded.1 <:+ (answer recorded request).1 := by
  unfold answer
  split
  · exact List.suffix_append _ _
  · exact List.suffix_refl _

/-- Accepted changes are not forgotten. -/
theorem suffix_session_append (requests later : List Request) :
    (session requests).1 <:+ (session (requests ++ later)).1 := by
  induction later using List.reverseRecOn with
  | nil => simpa only [List.append_nil] using List.suffix_refl (session requests).1
  | append_singleton later request ih =>
      rw [← List.append_assoc, session_concat]
      exact ih.trans (suffix_answer _ request)

/-- A rejected request leaves no trace: the accepted changes alone lead to the same
tracker. -/
theorem session_accepted (requests : List Request) :
    session ((session requests).1.reverse.map Change.request) = session requests := by
  induction requests using List.reverseRecOn with
  | nil => rfl
  | append_singleton requests request ih =>
      rw [session_concat]
      cases asks : request.change? with
      | none => rwa [answer_of_no_change asks]
      | some change =>
          have alone : change.request.change? = some change := by cases change <;> rfl
          rw [answer_of_change asks]
          cases accepted : change.request.outcome (session requests).2 with
          | error error =>
              have rejected : answer (session requests) change.request = session requests := by
                rw [answer, accepted]
              rwa [rejected]
          | ok next =>
              have recorded : (answer (session requests) change.request).1 =
                  change :: (session requests).1 := by
                rw [answer, accepted, alone]
                rfl
              rw [recorded, List.reverse_cons, List.map_append, List.map_singleton,
                session_concat, ih]

/-- **The accepted changes decide how a tracker answers.** After any requests of an empty
tracker its verdicts and the states of all coordinates are those that the accepted
changes call for. A rejected request leaves the tracker as it is, and the accepted
changes alone lead to the same tracker. No state is ever taken back. A check answers
what applying the payload would answer. Every coordinate is added at most once, pruned
at most once, and pruned only after it was added. -/
theorem session_obeys_history (requests : List Request) :
    (session requests).2.Obeys (session requests).1 ∧
    (∀ request error, request.outcome (session requests).2 = .error error →
      session (requests ++ [request]) = session requests) ∧
    session ((session requests).1.reverse.map Change.request) = session requests ∧
    (∀ later coordinate, progress ((session requests).2.state? coordinate) ≤
      progress ((session (requests ++ later)).2.state? coordinate)) ∧
    (∀ payload, (session requests).2.check payload =
      verdict ((session requests).2.apply payload)) ∧
    (∀ payload, (session requests).2.check payload = .ok () →
      ∃ next, (session requests).2.apply payload = .ok next) ∧
    (session requests).1.Nodup ∧
    ∀ coordinate earlier later, (session requests).1 = later ++ .pruned coordinate :: earlier →
      .added coordinate ∈ earlier := by
  have agrees := session_agrees requests
  refine ⟨agrees.obeys, fun request error rejected => ?_, session_accepted requests,
    fun later coordinate => ?_, fun payload => (verdict_apply _ payload).symm,
    fun payload => exists_apply_of_check, agrees.nodup,
    fun coordinate earlier later => agrees.added_of_pruned⟩
  · rw [session_concat, answer, rejected]
  · rw [agrees.state?_eq, (session_agrees (requests ++ later)).state?_eq]
    exact progress_le_of_suffix (suffix_session_append requests later)

end Tracker

end MixedInteger
