import MixedInteger.Telemetry.Announcement
import MixedInteger.Telemetry.Reader

/-! # The telemetry monitor

A monitor replays telemetry streams and keeps what it learns about each run.
Contradictions are collected instead of raised, so a misbehaving producer does
not stop the replay.
-/

namespace MixedInteger

/-- What is known about one run. -/
structure RunState where
  tracker : Tracker := {}
  solver : Option String := none
  finished : Bool := false
  messages : Nat := 0
  lastTimestamp : UInt64 := 0
  quantities : Std.ExtTreeMap String UInt64 := ∅

/-- A contradiction, with the run and the time of the message that caused it. -/
structure Contradiction where
  runId : String
  timestamp : UInt64
  error : ProtocolError
  deriving DecidableEq, Repr

/-- What is known about all runs. -/
structure Monitor where
  /-- The runs, by their names. -/
  runs : Std.ExtTreeMap String RunState := ∅
  contradictions : List Contradiction := []
  /-- The number of items that were no messages. -/
  malformed : Nat := 0

namespace RunState

/-- Take over what a payload says about the run, the search tree apart. -/
def note (run : RunState) : Payload → RunState
  | .solveStart body => { run with solver := some body.solver }
  | .solveEnd _ => { run with finished := true }
  | .updateVariable body =>
      { run with quantities := run.quantities.insert body.name body.value }
  | _ => run

/-- Count a message and keep the latest time. -/
def count (run : RunState) (timestamp : UInt64) : RunState :=
  { run with
    messages := run.messages + 1
    lastTimestamp := max run.lastTimestamp timestamp }

/-- Take over a message. The answer names the contradiction, if there is one. -/
def observe (run : RunState) (message : Message) : Option ProtocolError × RunState :=
  let noted := (run.count message.timestamp).note message.payload
  match noted.tracker.apply message.payload with
  | .ok tracker => (none, { noted with tracker })
  | .error error => (some error, noted)

end RunState

namespace Monitor

/-- The state of a run. -/
def run? (monitor : Monitor) (runId : String) : Option RunState := monitor.runs[runId]?

/-- Pass a message to the state of its run, and list the contradiction if there is one. -/
def observe (monitor : Monitor) (message : Message) : Monitor :=
  let (error, run) := ((monitor.run? message.runId).getD {}).observe message
  { monitor with
    runs := monitor.runs.insert message.runId run
    contradictions := monitor.contradictions
      ++ error.toList.map (Contradiction.mk message.runId message.timestamp) }

/-- Take over an item of a stream: a message is observed, anything else is
counted. -/
def observeItem (monitor : Monitor) : Except WireError Message → Monitor
  | .ok message => monitor.observe message
  | .error _ => { monitor with malformed := monitor.malformed + 1 }

/-- Observe every message of a stream. The answer is their number. -/
def replay (monitor : Monitor) (reader : Reader) : Nat × Monitor :=
  let items := reader.items
  (items.countP fun item => item.isOk, items.foldl observeItem monitor)

end Monitor

end MixedInteger
