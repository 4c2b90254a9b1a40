import MixedInteger.Proofs.Telemetry.Recovery
import MixedInteger.Proofs.Telemetry.Session
import MixedInteger.Proofs.Telemetry.Summary

/-! # Replaying a session

A monitor that replays what a validating writer has written learns what the
writer knows: it meets the contradictions that the writer has reported to its
caller, and follows the same search tree.
-/

namespace MixedInteger

namespace Monitor

/-- A stream of messages is replayed by observing one after the other. -/
theorem replay_eq {reader : Reader} {messages : List Message}
    (items : reader.items = messages.map .ok) (monitor : Monitor) :
    monitor.replay reader = (messages.length, messages.foldl observe monitor) := by
  have counted : (messages.map (Except.ok (ε := WireError))).countP (fun item => item.isOk) =
      messages.length := by
    rw [List.countP_map]
    exact List.countP_eq_length.mpr fun _ _ => rfl
  have folded : (messages.map (Except.ok (ε := WireError))).foldl observeItem monitor =
      messages.foldl observe monitor := by
    rw [List.foldl_map]
    rfl
  rw [replay, items, counted, folded]

end Monitor

namespace RunState

/-- Observing a message applies its payload to the tracker of the run. The
contradiction is the one that a writer with that tracker reports. -/
theorem observe_eq (run : RunState) (message : Message) :
    (run.observe message).1 =
        Writer.protocolError? (Writer.answer (run.tracker.apply message.payload)) ∧
      (run.observe message).2.tracker =
        (run.tracker.apply message.payload).toOption.getD run.tracker := by
  refine ⟨?_, congrArg tracker (run.observe_snd message)⟩
  have same : ((run.count message.timestamp).note message.payload).tracker = run.tracker :=
    note_tracker _ _
  rw [observe]
  simp only [same]
  cases run.tracker.apply message.payload <;> rfl

end RunState

namespace Writer

/-- The contradictions that a caller is told about: the protocol errors among
the answers, with the run and the times of the calls. -/
def reported (runId : String) (calls : List TimedCall)
    (answers : List (Except WriteError Unit)) : List Contradiction :=
  (calls.zip answers).flatMap fun (timed, answer) =>
    (protocolError? answer).toList.map (Contradiction.mk runId timed.now)

/-- Whether a monitor knows about the run of a writer what the writer knows. A
run that has not been observed stands for one whose writer has not written. -/
structure Mirrored (writer : Writer) (monitor : Monitor) : Prop where
  tracker : ((monitor.run? writer.options.runId).getD {}).tracker = writer.tracker
  /-- The run has been observed if anything was written. -/
  observed : 0 < writer.written → (monitor.run? writer.options.runId).isSome
  malformed : monitor.malformed = 0

variable {writer : Writer} {monitor : Monitor}

/-- A call keeps the monitor that observes its message level with the writer, and
the monitor takes note of the protocol error that the call answers with. -/
theorem Mirrored.make (mirrored : writer.Mirrored monitor)
    (enabled : writer.options.enabled = true)
    (validated : writer.options.validateProtocol = true)
    (accepting : Sink.Accepting writer.sink.plan) (timed : TimedCall) :
    (timed.call.make writer timed.now).2.Mirrored
        (monitor.observe (writer.options.message timed)) ∧
      (monitor.observe (writer.options.message timed)).contradictions =
        monitor.contradictions ++
          (protocolError? (timed.call.make writer timed.now).1).toList.map
            (Contradiction.mk writer.options.runId timed.now) := by
  obtain ⟨plan, -, made⟩ := make_eq enabled accepting timed
  obtain ⟨error, tracker⟩ :=
    ((monitor.run? writer.options.runId).getD {}).observe_eq (writer.options.message timed)
  rw [mirrored.tracker] at error tracker
  have run : (monitor.observe (writer.options.message timed)).run? writer.options.runId =
      some (((monitor.run? writer.options.runId).getD {}).observe
        (writer.options.message timed)).2 :=
    Std.ExtTreeMap.getElem?_insert_self
  rw [made, judge_eq_apply validated]
  refine ⟨⟨?_, fun _ => ?_, mirrored.malformed⟩, ?_⟩
  · rw [run]
    exact tracker
  · rw [run]
    rfl
  · exact congrArg (fun found : Option ProtocolError => monitor.contradictions ++
      found.toList.map (Contradiction.mk writer.options.runId timed.now)) error

/-- A session keeps the monitor that observes its messages level with the writer. -/
theorem Mirrored.session (mirrored : writer.Mirrored monitor)
    (enabled : writer.options.enabled = true)
    (validated : writer.options.validateProtocol = true)
    (accepting : Sink.Accepting writer.sink.plan) (calls : List TimedCall) :
    (writer.session calls).2.Mirrored
        ((calls.map writer.options.message).foldl Monitor.observe monitor) ∧
      ((calls.map writer.options.message).foldl Monitor.observe monitor).contradictions =
        monitor.contradictions ++
          reported writer.options.runId calls (writer.session calls).1 := by
  induction calls generalizing writer monitor with
  | nil => exact ⟨mirrored, (List.append_nil _).symm⟩
  | cons timed calls ih =>
      obtain ⟨level, noted⟩ := mirrored.make enabled validated accepting timed
      obtain ⟨plan, kept, made⟩ := make_eq enabled accepting timed
      have options : (timed.call.make writer timed.now).2.options = writer.options := by
        rw [made]
      obtain ⟨last, contradictions⟩ :=
        ih level (by rw [options]; exact enabled) (by rw [options]; exact validated)
          (by rw [made]; exact kept)
      rw [options] at last contradictions
      rw [List.map_cons, List.foldl_cons]
      refine ⟨last, ?_⟩
      rw [contradictions, noted, List.append_assoc]
      rfl

/-- Replaying what a validating writer has written to a sink that accepts every
byte: each call is observed as one message, the contradictions are those that the
writer has reported, and the run has the tracker of the writer. The bytes do not
depend on the validation. Every message has to fit a frame whose length is a
64-bit number. -/
theorem replay_session {options : TelemetryOptions} (enabled : options.enabled = true)
    (validated : options.validateProtocol = true) {plan : List WriteOutcome}
    (accepting : Sink.Accepting plan) {calls : List TimedCall}
    (fits : ∀ timed ∈ calls, (options.message timed).encode.length < 2 ^ 64)
    {answers : List (Except WriteError Unit)} {writer : Writer}
    (made : session { options, sink := { plan } } calls = (answers, writer)) {source : Source}
    (delivers : source.Delivers writer.sink.received) {observed : Nat} {monitor : Monitor}
    (replayed : Monitor.replay {} { source } = (observed, monitor)) :
    observed = calls.length ∧ writer.written = calls.length ∧ monitor.malformed = 0 ∧
      monitor.contradictions = reported options.runId calls answers ∧
      (calls ≠ [] →
        ∃ run, monitor.run? options.runId = some run ∧ run.tracker = writer.tracker) ∧
      (session { options := { options with validateProtocol := false }, sink := { plan } }
        calls).2.sink.received = writer.sink.received := by
  let start : Writer := { options, sink := { plan } }
  let unvalidated : Writer :=
    { options := { options with validateProtocol := false }, sink := { plan } }
  have startEnabled : start.options.enabled = true := enabled
  have unvalidatedEnabled : unvalidated.options.enabled = true := enabled
  obtain ⟨kept, written, received⟩ := session_frames startEnabled accepting calls
  obtain ⟨-, -, sameBytes⟩ := session_frames unvalidatedEnabled accepting calls
  have blank : start.Mirrored {} :=
    { tracker := rfl, observed := fun positive => absurd positive (Nat.lt_irrefl 0),
      malformed := rfl }
  obtain ⟨mirrored, noted⟩ := blank.session enabled validated accepting calls
  rw [made] at kept written received mirrored noted
  have frames : source.Delivers ((calls.map options.message).flatMap Message.frame) := by
    rw [List.flatMap_map]
    rwa [received, List.nil_append] at delivers
  have items := Reader.items_messages frames (List.forall_mem_map.mpr fits)
  rw [Monitor.replay_eq items] at replayed
  cases replayed
  refine ⟨List.length_map _, written.trans (Nat.zero_add _), mirrored.malformed, noted,
    fun nonempty => ?_, sameBytes.trans received.symm⟩
  have positive : 0 < writer.written := by
    rw [written]
    exact Nat.lt_of_lt_of_le (List.length_pos_iff.mpr nonempty) (Nat.le_add_left _ _)
  obtain ⟨run, known⟩ := Option.isSome_iff_exists.mp (mirrored.observed positive)
  have level := mirrored.tracker
  rw [known] at level
  rw [kept] at known
  exact ⟨run, known, level⟩

/-- A writer to a sink that is interrupted and takes three bytes at first. -/
def slow : Writer :=
  { options := { runId := "r" }, sink := { plan := [.interrupted, .accept 3] } }

/-- A session in which a node is closed that was never added. -/
def unknownPrune : List TimedCall :=
  [⟨5, .addNode {}⟩, ⟨7, .pruneNode ⟨[3]⟩⟩, ⟨6, .text 1 "closed"⟩]

theorem replay_session_unknownPrune :
    (slow.session unknownPrune).1 = [.ok (), .error (.protocol (.unknownNode ⟨[3]⟩)), .ok ()] ∧
      (Monitor.replay {}
        { source := [.chunk (slow.session unknownPrune).2.sink.received] }).2.contradictions =
          [⟨"r", 7, .unknownNode ⟨[3]⟩⟩] := by
  have answers : (slow.session unknownPrune).1 =
      [.ok (), .error (.protocol (.unknownNode ⟨[3]⟩)), .ok ()] := by decide +kernel
  have accepting : Sink.Accepting slow.sink.plan := by simp [Sink.Accepting, slow]
  have fits : ∀ timed ∈ unknownPrune, (slow.options.message timed).encode.length < 2 ^ 64 := by
    decide +kernel
  have nonempty : (slow.session unknownPrune).2.sink.received ≠ [] := by decide +kernel
  obtain ⟨-, -, -, contradictions, -⟩ :=
    replay_session rfl rfl accepting fits rfl (Source.Delivers.single _ nonempty) rfl
  refine ⟨answers, contradictions.trans ?_⟩
  change reported "r" unknownPrune (slow.session unknownPrune).1 = _
  rw [answers]
  rfl

end Writer

end MixedInteger
