import MixedInteger.Proofs.Outcome
import MixedInteger.Proofs.Telemetry.Session

/-! # Sessions on a failing sink

A sink may accept a part of a frame and then fail, at any call and again and again.
The log of a session says what became of each request: a call whose frame has been
written is counted and judged, and a call that the sink has failed leaves a strict
first part of its frame and nothing else (`Writer.service_exact`).
-/

namespace MixedInteger

namespace Writer

/-- What a caller may ask of a writer. -/
inductive Request where
  | call (timed : TimedCall)
  | flush

/-- What became of a request. -/
structure Entry where
  request : Request
  answer : Except WriteError Unit
  /-- The bytes that the sink has accepted meanwhile. -/
  accepted : Bytes

/-- The answer to a request, and the writer after it. -/
def serve (writer : Writer) : Request → Except WriteError Unit × Writer
  | .call timed => timed.call.make writer timed.now
  | .flush => writer.flush

/-- What becomes of a request to a writer. -/
def entry (writer : Writer) (request : Request) : Entry where
  request
  answer := (writer.serve request).1
  accepted := (writer.serve request).2.sink.received.drop writer.sink.received.length

/-- Serve requests one after the other. The result are the log and the writer after the
last request. -/
def service (writer : Writer) : List Request → List Entry × Writer
  | [] => ([], writer)
  | request :: requests =>
      let (log, last) := (writer.serve request).2.service requests
      (writer.entry request :: log, last)

/-- The message of a call, unless the sink has failed it. -/
def Entry.acknowledged? (options : TelemetryOptions) : Entry → Option Message
  | ⟨.call _, .error (.io _), _⟩ => none
  | ⟨.call timed, _, _⟩ => some (options.message timed)
  | ⟨.flush, _, _⟩ => none

/-- The payload of a call that was answered without any error. -/
def Entry.approved? : Entry → Option Payload
  | ⟨.call timed, .ok (), _⟩ => some timed.call.payload
  | _ => none

/-- The messages of the calls that were answered with anything but a failure of the
sink. -/
def acknowledged (options : TelemetryOptions) (log : List Entry) : List Message :=
  log.flatMap fun entry => (entry.acknowledged? options).toList

/-- The payloads of the calls that were answered without any error. -/
def approved (log : List Entry) : List Payload :=
  log.flatMap fun entry => entry.approved?.toList

/-- What may become of a request. -/
inductive Leaves (options : TelemetryOptions) : Entry → Prop where
  | flushed (answer : Except WriteError Unit) : Leaves options ⟨.flush, answer, []⟩
  | approved (timed : TimedCall) :
      Leaves options ⟨.call timed, .ok (), (options.message timed).frame⟩
  | contradicted (timed : TimedCall) (error : ProtocolError) :
      Leaves options ⟨.call timed, .error (.protocol error), (options.message timed).frame⟩
  /-- The sink has failed before it has accepted the whole frame. -/
  | failed (timed : TimedCall) (text : String) {front : Bytes}
      (cut : front <+: (options.message timed).frame)
      (strict : front ≠ (options.message timed).frame) :
      Leaves options ⟨.call timed, .error (.io text), front⟩

/-- What a writer has become after a request. -/
structure Served (writer next : Writer) (entry : Entry) : Prop where
  leaves : Leaves writer.options entry
  options : next.options = writer.options
  received : next.sink.received = writer.sink.received ++ entry.accepted
  written : next.written = writer.written + (entry.acknowledged? writer.options).toList.length
  tracker : writer.options.validateProtocol = true →
    entry.approved?.toList.foldlM Tracker.apply writer.tracker = .ok next.tracker

variable {writer next : Writer}

/-- The entry of a request, for known bytes that the sink has received meanwhile. -/
theorem entry_eq {request : Request} {answer : Except WriteError Unit} {piece : Bytes}
    (served : writer.serve request = (answer, next))
    (received : next.sink.received = writer.sink.received ++ piece) :
    writer.entry request = ⟨request, answer, piece⟩ := by
  rw [entry, served, received, List.drop_left]

/-- A flush changes the sink alone, and sends nothing. -/
theorem flush_eq (writer : Writer) :
    ∃ answer sink, writer.flush = (answer, { writer with sink }) ∧
      sink.received = writer.sink.received := by
  have kept := Sink.received_flush writer.sink
  unfold flush
  cases flushed : writer.sink.flush with
  | mk outcome sink =>
      rw [flushed] at kept
      cases outcome with
      | error text => exact ⟨_, sink, rfl, kept⟩
      | ok _ => exact ⟨_, sink, rfl, kept⟩

/-- What a writer has become after a call or a flush. -/
theorem served_serve (enabled : writer.options.enabled = true) (request : Request) :
    writer.Served (writer.serve request).2 (writer.entry request) := by
  cases request with
  | flush =>
      obtain ⟨answer, sink, flushed, kept⟩ := writer.flush_eq
      have served : writer.serve .flush = (answer, { writer with sink }) := flushed
      have received : sink.received = writer.sink.received ++ [] := by rw [kept, List.append_nil]
      rw [entry_eq served received, served]
      exact ⟨.flushed answer, rfl, received, rfl, fun _ => rfl⟩
  | call timed =>
      obtain ⟨plan, written⟩ | ⟨text, front, plan, failed, cut, strict⟩ :=
        writer.sink.writeAll_cases (writer.options.message timed).frame
      · have served : writer.serve (.call timed) = _ := make_of_writeAll_ok enabled written
        rw [entry_eq served rfl, served]
        cases judged : writer.judge timed.call.payload with
        | ok tracker =>
            refine ⟨.approved timed, rfl, rfl, rfl, fun validated => ?_⟩
            rw [judge_eq_apply validated] at judged
            exact Outcome.bind_eq_ok_iff.mpr ⟨tracker, judged, rfl⟩
        | error error => exact ⟨.contradicted timed error, rfl, rfl, rfl, fun _ => rfl⟩
      · have served : writer.serve (.call timed) = _ := make_of_writeAll_error enabled failed
        rw [entry_eq served rfl, served]
        exact ⟨.failed timed text cut strict, rfl, rfl, rfl, fun _ => rfl⟩

/-- A session is exact when each of its requests is. -/
theorem service_spec (enabled : writer.options.enabled = true) (requests : List Request) :
    (writer.service requests).1.map Entry.request = requests ∧
      (∀ entry ∈ (writer.service requests).1, Leaves writer.options entry) ∧
      (writer.service requests).2.options = writer.options ∧
      (writer.service requests).2.sink.received =
        writer.sink.received ++ (writer.service requests).1.flatMap Entry.accepted ∧
      (writer.service requests).2.written =
        writer.written + (acknowledged writer.options (writer.service requests).1).length ∧
      (writer.options.validateProtocol = true →
        (approved (writer.service requests).1).foldlM Tracker.apply writer.tracker =
          .ok (writer.service requests).2.tracker) := by
  induction requests generalizing writer with
  | nil =>
      exact ⟨rfl, nofun, rfl, (List.append_nil _).symm, rfl, fun _ => rfl⟩
  | cons request requests ih =>
      have served := writer.served_serve enabled request
      rw [← served.options] at enabled
      obtain ⟨same, leaves, options, received, written, tracker⟩ := ih enabled
      rw [served.options] at leaves options written tracker
      refine ⟨congrArg (request :: ·) same, List.forall_mem_cons.mpr ⟨served.leaves, leaves⟩,
        options, ?_, ?_, fun validated => ?_⟩
      · refine received.trans ?_
        rw [served.received, List.append_assoc]
        rfl
      · refine written.trans ?_
        rw [served.written, Nat.add_assoc, ← List.length_append]
        rfl
      · have applied : (approved (writer.service (request :: requests)).1) =
            (writer.entry request).approved?.toList ++
              approved ((writer.serve request).2.service requests).1 := rfl
        rw [applied, List.foldlM_append, served.tracker validated]
        exact tracker validated

/-- **A session on a failing sink is exact.** The sink has received, in order, the whole
frame of every call that was answered with success or a protocol error, and a strict
first part of the frame of every call that it has failed. The complete frames are
counted, and the tracker is that of the payloads that were answered with success. A
further call answers with the judgement of its payload if its frame is written. If the
sink fails, it changes neither the count nor the tracker, so that the next attempt is
judged in the same way. -/
theorem service_exact {options : TelemetryOptions} (enabled : options.enabled = true)
    (validated : options.validateProtocol = true) {plan : List WriteOutcome}
    {requests : List Request} {log : List Entry} {writer : Writer}
    (served : service { options, sink := { plan } } requests = (log, writer)) :
    log.map Entry.request = requests ∧
      (∀ entry ∈ log, Leaves options entry) ∧
      writer.sink.received = log.flatMap Entry.accepted ∧
      writer.written = (acknowledged options log).length ∧
      (approved log).foldlM Tracker.apply {} = .ok writer.tracker ∧
      ∀ timed : TimedCall,
        (∀ sink, writer.sink.writeAll (options.message timed).frame = (.ok (), sink) →
          (timed.call.make writer timed.now).1 =
            answer (writer.tracker.apply timed.call.payload)) ∧
        ∀ text sink, writer.sink.writeAll (options.message timed).frame = (.error text, sink) →
          timed.call.make writer timed.now = (.error (.io text), { writer with sink }) ∧
            ∀ payload, judge { writer with sink } payload = writer.judge payload := by
  let start : Writer := { options, sink := { plan } }
  have startEnabled : start.options.enabled = true := enabled
  obtain ⟨same, leaves, kept, received, written, tracker⟩ := service_spec startEnabled requests
  rw [served] at same leaves kept received written tracker
  have kept : writer.options = options := kept
  have stillEnabled : writer.options.enabled = true := kept ▸ enabled
  have stillValidated : writer.options.validateProtocol = true := kept ▸ validated
  refine ⟨same, leaves, received, written.trans (Nat.zero_add _), tracker validated,
    fun timed => ⟨fun sink done => ?_, fun text sink failed => ⟨?_, fun payload => rfl⟩⟩⟩
  · rw [← kept] at done
    rw [make_of_writeAll_ok stillEnabled done, judge_eq_apply stillValidated]
  · rw [← kept] at failed
    exact make_of_writeAll_error stillEnabled failed

/-- A sink that accepts three bytes and then fails once. -/
def failingOnce : List WriteOutcome := [.accept 3, .fail "disk full"]

/-- The root is added, which fails, added again, and a node is closed that was never
added. -/
def secondAttempt : List Request :=
  [.call ⟨0, .addNode {}⟩, .flush, .call ⟨1, .addNode {}⟩, .call ⟨2, .pruneNode ⟨[3]⟩⟩]

/-- The failed first attempt counts for nothing, and the second one is judged as if there had been
no other. -/
theorem service_exact_secondAttempt :
    let (log, writer) := service { options := {}, sink := { plan := failingOnce } } secondAttempt
    log.map Entry.answer = [.error (.io "disk full"), .ok (), .ok (),
        .error (.protocol (.unknownNode ⟨[3]⟩))] ∧
      writer.sink.received = log.flatMap Entry.accepted ∧ writer.written = 2 ∧
      (approved log).foldlM Tracker.apply {} = .ok writer.tracker := by
  obtain ⟨-, -, received, written, tracker, -⟩ :=
    service_exact (rfl : ({} : TelemetryOptions).enabled = true) rfl
      (rfl : service { options := {}, sink := { plan := failingOnce } } secondAttempt = (_, _))
  refine ⟨by decide +kernel, received, written.trans ?_, tracker⟩
  decide +kernel

end Writer

end MixedInteger
