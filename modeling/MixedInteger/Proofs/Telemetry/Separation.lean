import Mathlib.Algebra.BigOperators.Group.List.Lemmas
import Mathlib.Algebra.GroupWithZero.Nat
import Mathlib.Data.List.Induction
import MixedInteger.Proofs.Telemetry.Summary

/-! # Runs that share a monitor

A monitor keeps one table and one list of contradictions for all runs. What it
knows about a run depends on the messages of that run alone, and on their order,
but not on the messages of other runs between them
(`Monitor.ofMessages_separates_runs`). It is what these messages amount to
(`Monitor.sums_ofMessages`).
-/

namespace MixedInteger

namespace Monitor

/-- The monitor that has observed a list of messages and nothing else. -/
def ofMessages (messages : List Message) : Monitor := messages.foldl observe {}

/-- The messages of one run, in order. -/
def messagesOf (runId : String) (messages : List Message) : List Message :=
  messages.filter fun message => message.runId = runId

/-- The contradictions that a monitor lists for one run, in order. -/
def contradictionsOf (monitor : Monitor) (runId : String) : List Contradiction :=
  monitor.contradictions.filter fun found => found.runId = runId

variable {monitor left right : Monitor} {message : Message} {runId : String}

/-! ## What one message does -/

/-- A message changes the state of its own run only. -/
theorem run?_observe (monitor : Monitor) (message : Message) (runId : String) :
    (monitor.observe message).run? runId =
      if message.runId = runId then some (((monitor.run? runId).getD {}).observe message).2
      else monitor.run? runId := by
  unfold run? observe
  dsimp only
  rw [Std.ExtTreeMap.getElem?_insert]
  simp only [Std.LawfulEqCmp.compare_eq_iff_eq]
  split
  · rename_i own
    rw [own]
    rfl
  · rfl

/-- A message adds at most its own contradiction, behind those listed before. -/
theorem contradictions_observe (monitor : Monitor) (message : Message) :
    (monitor.observe message).contradictions = monitor.contradictions ++
      (((monitor.run? message.runId).getD {}).observe message).1.toList.map
        (Contradiction.mk message.runId message.timestamp) := rfl

/-- A contradiction is listed after a message only if it was before or is one of the message's
run. -/
theorem runId_of_mem_contradictions_observe {found : Contradiction}
    (listed : found ∈ (monitor.observe message).contradictions) :
    found ∈ monitor.contradictions ∨ found.runId = message.runId := by
  rw [contradictions_observe] at listed
  obtain earlier | new := List.mem_append.mp listed
  · exact .inl earlier
  · obtain ⟨error, -, rfl⟩ := List.mem_map.mp new
    exact .inr rfl

/-- A message adds to the contradictions of its own run only. -/
theorem contradictionsOf_observe (monitor : Monitor) (message : Message) (runId : String) :
    (monitor.observe message).contradictionsOf runId = monitor.contradictionsOf runId ++
      if message.runId = runId then
        (((monitor.run? runId).getD {}).observe message).1.toList.map
          (Contradiction.mk runId message.timestamp)
      else [] := by
  unfold contradictionsOf
  rw [contradictions_observe, List.filter_append, List.filter_map]
  congr 1
  split
  · rename_i own
    subst own
    rw [List.filter_eq_self.mpr]
    exact fun error _ => decide_eq_true rfl
  · rename_i other
    rw [List.filter_eq_nil_iff.mpr]
    · rfl
    · exact fun error _ => by simpa using other

/-! ## Monitors that agree on a run -/

/-- Two monitors know the same about a run. -/
structure AgreeOn (runId : String) (left right : Monitor) : Prop where
  run? : left.run? runId = right.run? runId
  contradictionsOf : left.contradictionsOf runId = right.contradictionsOf runId

/-- A message of the run adds the same to both. -/
theorem AgreeOn.observe (agree : AgreeOn runId left right) (own : message.runId = runId) :
    AgreeOn runId (left.observe message) (right.observe message) where
  run? := by rw [run?_observe, run?_observe, if_pos own, if_pos own, agree.run?]
  contradictionsOf := by
    rw [contradictionsOf_observe, contradictionsOf_observe, if_pos own, if_pos own,
      agree.run?, agree.contradictionsOf]

/-- A message of another run adds nothing. -/
theorem AgreeOn.observe_left (agree : AgreeOn runId left right) (other : message.runId ≠ runId) :
    AgreeOn runId (left.observe message) right where
  run? := by rw [run?_observe, if_neg other, agree.run?]
  contradictionsOf := by
    rw [contradictionsOf_observe, if_neg other, List.append_nil, agree.contradictionsOf]

/-- Monitors that agree on a run still agree on it when one reads all messages and the other only
those of the run. -/
theorem AgreeOn.foldl_observe (agree : AgreeOn runId left right) (messages : List Message) :
    AgreeOn runId (messages.foldl Monitor.observe left)
      ((messagesOf runId messages).foldl Monitor.observe right) := by
  induction messages generalizing left right with
  | nil => exact agree
  | cons message messages ih =>
      by_cases own : message.runId = runId
      · have kept : messagesOf runId (message :: messages) = message :: messagesOf runId messages :=
          List.filter_cons_of_pos (decide_eq_true own)
        rw [kept]
        exact ih (agree.observe own)
      · have dropped : messagesOf runId (message :: messages) = messagesOf runId messages :=
          List.filter_cons_of_neg (by simpa using own)
        rw [dropped]
        exact ih (agree.observe_left own)

/-- A monitor of all messages agrees on a run with a monitor of the run's messages. -/
theorem ofMessages_agreeOn (messages : List Message) (runId : String) :
    AgreeOn runId (ofMessages messages) (ofMessages (messagesOf runId messages)) :=
  AgreeOn.foldl_observe ⟨rfl, rfl⟩ messages

/-- A monitor that observes one run only finds contradictions of that run only. -/
theorem contradictionsOf_ofMessages {messages : List Message}
    (own : ∀ message ∈ messages, message.runId = runId) :
    (ofMessages messages).contradictionsOf runId = (ofMessages messages).contradictions := by
  suffices all : ∀ found ∈ (ofMessages messages).contradictions, found.runId = runId from
    List.filter_eq_self.mpr fun found listed => decide_eq_true (all found listed)
  induction messages using List.reverseRecOn with
  | nil => exact nofun
  | append_singleton messages message ih =>
      intro found listed
      rw [ofMessages, List.foldl_concat] at listed
      obtain earlier | new := runId_of_mem_contradictions_observe listed
      · exact ih (fun message member => own message (List.mem_append_left _ member)) found earlier
      · exact new.trans (own message (List.mem_append_right _ (List.mem_singleton_self _)))

/-! ## Counting messages -/

/-- **A monitor sums up each run.** What it knows of a run after any messages is what the
messages of that run amount to. -/
theorem sums_ofMessages (messages : List Message) (runId : String) :
    (((ofMessages messages).run? runId).getD {}).Sums (messagesOf runId messages) := by
  induction messages using List.reverseRecOn with
  | nil => exact RunState.sums_nil
  | append_singleton messages message ih =>
      have last : ofMessages (messages ++ [message]) = (ofMessages messages).observe message :=
        List.foldl_concat ..
      rw [last, run?_observe]
      split
      · rename_i own
        have kept : messagesOf runId (messages ++ [message]) =
            messagesOf runId messages ++ [message] := by
          rw [messagesOf, List.filter_append, List.filter_singleton, decide_eq_true own]
          rfl
        rw [kept]
        exact ih.observe message
      · rename_i other
        have dropped : messagesOf runId (messages ++ [message]) = messagesOf runId messages := by
          rw [messagesOf, List.filter_append, List.filter_singleton, decide_eq_false other]
          exact List.append_nil _
        rw [dropped]
        exact ih

/-- A run counts its messages. -/
theorem messages_of_run?_eq_some {messages : List Message} {run : RunState}
    (known : (ofMessages messages).run? runId = some run) :
    run.messages = (messages.map Message.runId).count runId := by
  have sums := sums_ofMessages messages runId
  rw [known, Option.getD_some] at sums
  rw [sums.messages_eq, messagesOf, List.count, List.countP_map, List.countP_eq_length_filter]
  rfl

/-- A run has a state exactly when some message names it. -/
theorem run?_ofMessages_eq_none_iff {messages : List Message} :
    (ofMessages messages).run? runId = none ↔ ∀ message ∈ messages, message.runId ≠ runId := by
  induction messages using List.reverseRecOn with
  | nil => exact ⟨fun _ => nofun, fun _ => rfl⟩
  | append_singleton messages message ih =>
      have last : ofMessages (messages ++ [message]) = (ofMessages messages).observe message :=
        List.foldl_concat ..
      rw [last, run?_observe, List.forall_mem_append, List.forall_mem_singleton, ← ih]
      split
      · rename_i own
        exact ⟨nofun, fun both => absurd own both.2⟩
      · rename_i other
        exact ⟨fun unknown => ⟨unknown, other⟩, And.left⟩

/-- Every message is counted by its own run, and every run occurs once in the table. -/
theorem sum_messages_ofMessages (messages : List Message) :
    ((ofMessages messages).runs.toList.map fun run => run.2.messages).sum = messages.length := by
  let ids := messages.map Message.runId
  have counted : ∀ run ∈ (ofMessages messages).runs.toList, run.2.messages = ids.count run.1 := by
    intro run listed
    have known : (ofMessages messages).run? run.1 = some run.2 :=
      Std.ExtTreeMap.mem_toList_iff_getElem?_eq_some.mp listed
    exact messages_of_run?_eq_some known
  have distinct : ((ofMessages messages).runs.toList.map Prod.fst).Nodup := by
    refine List.pairwise_map.mpr ((ofMessages messages).runs.distinct_keys_toList.imp ?_)
    intro first second different same
    exact different (Std.LawfulEqCmp.compare_eq_iff_eq.mpr same)
  have names : ∀ runId, runId ∈ (ofMessages messages).runs.toList.map Prod.fst ↔
      runId ∈ ids.dedup := by
    intro runId
    have known : ¬ (ofMessages messages).run? runId = none ↔ _ :=
      run?_ofMessages_eq_none_iff.not
    rw [← ne_eq, Option.ne_none_iff_exists'] at known
    simp only [List.mem_map, List.mem_dedup, ids, Prod.exists, exists_and_right,
      exists_eq_right, Std.ExtTreeMap.mem_toList_iff_getElem?_eq_some]
    refine known.trans ?_
    simp
  have sameNames : ((ofMessages messages).runs.toList.map Prod.fst).Perm ids.dedup :=
    (List.perm_ext_iff_of_nodup distinct ids.nodup_dedup).mpr names
  calc ((ofMessages messages).runs.toList.map fun run => run.2.messages).sum
      = ((ofMessages messages).runs.toList.map fun run => ids.count run.1).sum := by
        rw [List.map_congr_left counted]
    _ = (((ofMessages messages).runs.toList.map Prod.fst).map fun id => ids.count id).sum := by
        rw [List.map_map]
        rfl
    _ = (ids.dedup.map fun id => ids.count id).sum := (sameNames.map _).sum_eq
    _ = ids.length := List.sum_map_count_dedup_eq_length ids
    _ = messages.length := List.length_map _

/-- **Runs do not interfere.** What a monitor knows about a run after any messages, and
the contradictions it has found in the run, are what a monitor knows that has observed
only the messages of the run. A run is unknown exactly when none of its messages has been
observed, and the runs count all messages between them. So two interleavings of the
same messages of each run give the same knowledge of each run. -/
theorem ofMessages_separates_runs (messages : List Message) :
    (∀ runId,
      (ofMessages messages).run? runId = (ofMessages (messagesOf runId messages)).run? runId ∧
      (ofMessages messages).contradictionsOf runId =
        (ofMessages (messagesOf runId messages)).contradictions ∧
      ((ofMessages messages).run? runId = none ↔
        ∀ message ∈ messages, message.runId ≠ runId)) ∧
    ((ofMessages messages).runs.toList.map fun run => run.2.messages).sum = messages.length ∧
    ∀ reordered, (∀ runId, messagesOf runId reordered = messagesOf runId messages) →
      ∀ runId, (ofMessages reordered).run? runId = (ofMessages messages).run? runId ∧
        (ofMessages reordered).contradictionsOf runId =
          (ofMessages messages).contradictionsOf runId := by
  refine ⟨fun runId => ?_, sum_messages_ofMessages messages, fun reordered same runId => ?_⟩
  · have agree := ofMessages_agreeOn messages runId
    have own : ∀ message ∈ messagesOf runId messages, message.runId = runId := fun message member =>
      of_decide_eq_true (List.mem_filter.mp member).2
    exact ⟨agree.run?, agree.contradictionsOf.trans (contradictionsOf_ofMessages own),
      run?_ofMessages_eq_none_iff⟩
  · have agree := ofMessages_agreeOn messages runId
    have reorderedAgree := ofMessages_agreeOn reordered runId
    rw [same] at reorderedAgree
    exact ⟨reorderedAgree.run?.trans agree.run?.symm,
      reorderedAgree.contradictionsOf.trans agree.contradictionsOf.symm⟩

/-- Two runs that report in turn. The first one closes its root twice. -/
def alternating : List Message :=
  [⟨"n", "a", 1, .addNode {}⟩, ⟨"n", "b", 2, .pruneNode {}⟩, ⟨"n", "a", 4, .pruneNode {}⟩,
    ⟨"n", "b", 2, .addNode {}⟩, ⟨"n", "a", 3, .pruneNode {}⟩]

/-- The same messages, one run after the other. -/
def successive : List Message := messagesOf "b" alternating ++ messagesOf "a" alternating

/-- Two orders of the same messages of two runs give the same states, with one contradiction in a
run and five messages in all. -/
theorem ofMessages_separates_runs_successive :
    (∀ runId, (ofMessages successive).run? runId = (ofMessages alternating).run? runId) ∧
      (ofMessages successive).contradictionsOf "a" = [⟨"a", 3, .alreadyPruned .root⟩] ∧
      ((ofMessages successive).runs.toList.map fun run => run.2.messages).sum = 5 := by
  have reordered : ∀ runId, messagesOf runId successive = messagesOf runId alternating := by
    intro runId
    by_cases first : "a" = runId
    · subst first
      rfl
    · by_cases second : "b" = runId
      · subst second
        rfl
      · simp [messagesOf, successive, alternating, first, second]
  obtain ⟨alone, total, -⟩ := ofMessages_separates_runs successive
  obtain ⟨-, -, same⟩ := ofMessages_separates_runs alternating
  refine ⟨fun runId => (same successive reordered runId).1, ?_, total⟩
  rw [(alone "a").2.1]
  decide +kernel

end Monitor

end MixedInteger
