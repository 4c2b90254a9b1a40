import MixedInteger.Proofs.SearchTree.History
import MixedInteger.Proofs.Stream.Acceptance
import MixedInteger.Telemetry.Writer

/-! # Sessions of a writer

A session is a sequence of calls of a writer, each at the time that the clock
shows. Whatever a call is for, it sends one payload. On a sink that accepts
every byte each call of an enabled writer appends one frame, and with validation
on its answer and its tracker are those of applying the payload once.
-/

namespace MixedInteger

/-- A call of a writer. -/
inductive Call where
  | text (level : UInt32) (content : String)
  | tensor (filename group dataset : String) (sizes : List Int32)
  | nodeTensor (filename : String) (coordinate : Coordinate) (dataset : String)
      (sizes : List Int32)
  | solveStart (solver : String)
  | solveEnd (solver : String)
  | updateVariable (name : String) (iteration : List UInt32) (value : UInt64)
  | addNode (descriptor : NodeDescriptor)
  | pruneNode (coordinate : Coordinate)

namespace Call

/-- The answer of a writer to a call, and the writer after it. -/
def make (writer : Writer) (now : UInt64) : Call → Except WriteError Unit × Writer
  | text level content => writer.text now level content
  | tensor filename group dataset sizes => writer.tensor now filename group dataset sizes
  | nodeTensor filename coordinate dataset sizes =>
      writer.nodeTensor now filename coordinate dataset sizes
  | solveStart solver => writer.solveStart now solver
  | solveEnd solver => writer.solveEnd now solver
  | updateVariable name iteration value => writer.updateVariable now name iteration value
  | addNode descriptor => writer.addNode now descriptor
  | pruneNode coordinate => writer.pruneNode now coordinate

/-- The payload of the message that a call sends. -/
def payload : Call → Payload
  | text level content => .text { level, content }
  | tensor filename group dataset sizes => .tensor { filename, group, dataset, sizes }
  | nodeTensor filename coordinate dataset sizes =>
      .tensor { filename, group := coordinate.text, dataset, sizes }
  | solveStart solver => .solveStart { solver }
  | solveEnd solver => .solveEnd { solver }
  | updateVariable name iteration value => .updateVariable { name, iteration, value }
  | addNode descriptor => .addNode descriptor
  | pruneNode coordinate => .pruneNode { coordinate }

/-- Every call sends the message of its payload. -/
theorem make_eq_send (call : Call) (writer : Writer) (now : UInt64) :
    call.make writer now = writer.send now call.payload := by
  cases call <;> rfl

end Call

/-- A call at the time that the clock shows. -/
structure TimedCall where
  now : UInt64
  call : Call

/-- The message of a call of a writer with certain settings. -/
def TelemetryOptions.message (options : TelemetryOptions) (timed : TimedCall) : Message :=
  ⟨options.name, options.runId, timed.now, timed.call.payload⟩

/-- Checking a payload first does not change what applying it gives. -/
theorem Tracker.check_bind_apply (tracker : Tracker) (payload : Payload) :
    (tracker.check payload >>= fun _ => tracker.apply payload) = tracker.apply payload := by
  rw [← tracker.verdict_apply]
  cases tracker.apply payload <;> rfl

namespace Writer

/-- The answer to a caller whose payload has been judged. -/
def answer : Except ProtocolError Tracker → Except WriteError Unit
  | .ok _ => .ok ()
  | .error error => .error (.protocol error)

/-- The protocol error that a caller is told about, if there is one. -/
def protocolError? : Except WriteError Unit → Option ProtocolError
  | .error (.protocol error) => some error
  | _ => none

/-- Make calls one after the other. The result are the answers and the writer
after the last call. -/
def session (writer : Writer) : List TimedCall → List (Except WriteError Unit) × Writer
  | [] => ([], writer)
  | timed :: calls =>
      let (first, next) := timed.call.make writer timed.now
      let (answers, last) := next.session calls
      (first :: answers, last)

/-- A writer that validates judges a payload as its tracker does. -/
theorem judge_eq_apply {writer : Writer} (validated : writer.options.validateProtocol = true)
    (payload : Payload) : writer.judge payload = writer.tracker.apply payload := by
  rw [judge, if_pos validated]
  exact writer.tracker.check_bind_apply payload

/-- A call whose frame has been written answers with the judgement of its payload. -/
theorem make_of_writeAll_ok {writer : Writer} (enabled : writer.options.enabled = true)
    {timed : TimedCall} {sink : Sink}
    (written : writer.sink.writeAll (writer.options.message timed).frame = (.ok (), sink)) :
    timed.call.make writer timed.now =
      (answer (writer.judge timed.call.payload),
        { options := writer.options
          sink
          tracker := (writer.judge timed.call.payload).toOption.getD writer.tracker
          written := writer.written + 1 }) := by
  have stamped : writer.stamp timed.now timed.call.payload = writer.options.message timed := rfl
  rw [Call.make_eq_send, send, if_pos enabled, stamped, written]
  cases judged : writer.judge timed.call.payload with
  | ok tracker =>
      simp only
      rfl
  | error error =>
      simp only
      rfl

/-- A call whose frame has not been written completely changes the sink only. -/
theorem make_of_writeAll_error {writer : Writer} (enabled : writer.options.enabled = true)
    {timed : TimedCall} {text : String} {sink : Sink}
    (failed : writer.sink.writeAll (writer.options.message timed).frame = (.error text, sink)) :
    timed.call.make writer timed.now = (.error (.io text), { writer with sink }) := by
  have stamped : writer.stamp timed.now timed.call.payload = writer.options.message timed := rfl
  rw [Call.make_eq_send, send, if_pos enabled, stamped, failed]

/-- On an accepting sink a call appends one frame and answers with the judgement
of its payload. -/
theorem make_eq {writer : Writer} (enabled : writer.options.enabled = true)
    (accepting : Sink.Accepting writer.sink.plan) (timed : TimedCall) :
    ∃ plan, Sink.Accepting plan ∧
      timed.call.make writer timed.now =
        (answer (writer.judge timed.call.payload),
          { options := writer.options
            sink := ⟨plan, writer.sink.received ++ (writer.options.message timed).frame⟩
            tracker := (writer.judge timed.call.payload).toOption.getD writer.tracker
            written := writer.written + 1 }) := by
  obtain ⟨plan, written, kept⟩ :=
    accepting.writeAll_eq (writer.options.message timed).frame
  exact ⟨plan, kept, make_of_writeAll_ok enabled written⟩

/-- On an accepting sink a session appends one frame for each call, whether
payloads are validated or not. -/
theorem session_frames {writer : Writer} (enabled : writer.options.enabled = true)
    (accepting : Sink.Accepting writer.sink.plan) (calls : List TimedCall) :
    (writer.session calls).2.options = writer.options ∧
      (writer.session calls).2.written = writer.written + calls.length ∧
      (writer.session calls).2.sink.received =
        writer.sink.received ++
          calls.flatMap fun timed => (writer.options.message timed).frame := by
  induction calls generalizing writer with
  | nil => exact ⟨rfl, rfl, (List.append_nil _).symm⟩
  | cons timed calls ih =>
      obtain ⟨plan, kept, made⟩ := make_eq enabled accepting timed
      have nextEnabled : (timed.call.make writer timed.now).2.options.enabled = true := by
        rw [made]
        exact enabled
      obtain ⟨options, written, received⟩ := ih nextEnabled (by rw [made]; exact kept)
      rw [session]
      rw [made] at options written received ⊢
      refine ⟨options, ?_, ?_⟩
      · rw [List.length_cons, Nat.add_comm calls.length, ← Nat.add_assoc]
        exact written
      · rw [List.flatMap_cons, ← List.append_assoc]
        exact received

end Writer

end MixedInteger
