import MixedInteger.Stream.Sink
import MixedInteger.Telemetry.Announcement
import MixedInteger.Telemetry.Envelope
import MixedInteger.Telemetry.Options

/-! # The telemetry writer

A writer stamps payloads with its name, its run and the time and appends them to
a sink as frames. With validation on, announcements about the search tree that
contradict earlier ones are written all the same, so that the other side sees
them, and are then reported to the caller. The writer's tracker holds only what
was accepted and has reached the sink.
-/

namespace MixedInteger

/-- The errors of a writer. -/
inductive WriteError where
  | io (text : String)
  /-- The payload contradicts earlier ones. -/
  | protocol (error : ProtocolError)
  deriving DecidableEq, Repr

/-- A producer of telemetry. -/
structure Writer where
  options : TelemetryOptions := {}
  sink : Sink := {}
  /-- The nodes of the search tree announced so far. -/
  tracker : Tracker := {}
  /-- The number of frames that have reached the sink. -/
  written : Nat := 0

namespace Writer

/-- The message of a payload at a time. -/
def stamp (writer : Writer) (now : UInt64) (payload : Payload) : Message :=
  ⟨writer.options.name, writer.options.runId, now, payload⟩

/-- Whether a payload agrees with the earlier ones, and the tracker after it. -/
def judge (writer : Writer) (payload : Payload) : Except ProtocolError Tracker :=
  if writer.options.validateProtocol then do
    writer.tracker.check payload
    writer.tracker.apply payload
  else .ok writer.tracker

/-- Write the frame of a payload and judge the payload. A writer that is switched off does
nothing. -/
def send (writer : Writer) (now : UInt64) (payload : Payload) :
    Except WriteError Unit × Writer :=
  if writer.options.enabled then
    match writer.sink.writeAll (writer.stamp now payload).frame with
    | (.error text, sink) => (.error (.io text), { writer with sink })
    | (.ok (), sink) =>
        let counted := { writer with sink, written := writer.written + 1 }
        match writer.judge payload with
        | .error error => (.error (.protocol error), counted)
        | .ok tracker => (.ok (), { counted with tracker })
  else (.ok (), writer)

def text (writer : Writer) (now : UInt64) (level : UInt32) (content : String) :
    Except WriteError Unit × Writer :=
  writer.send now (.text { level, content })

/-- Report where a tensor is stored. -/
def tensor (writer : Writer) (now : UInt64) (filename group dataset : String)
    (sizes : List Int32) : Except WriteError Unit × Writer :=
  writer.send now (.tensor { filename, group, dataset, sizes })

/-- Send a reference to an array that is stored for a node: its group is the
written form of the node's coordinate. -/
def nodeTensor (writer : Writer) (now : UInt64) (filename : String) (coordinate : Coordinate)
    (dataset : String) (sizes : List Int32) : Except WriteError Unit × Writer :=
  writer.tensor now filename coordinate.text dataset sizes

/-- Report that a solver starts. -/
def solveStart (writer : Writer) (now : UInt64) (solver : String) :
    Except WriteError Unit × Writer :=
  writer.send now (.solveStart { solver })

/-- Report that a solver ends. -/
def solveEnd (writer : Writer) (now : UInt64) (solver : String) :
    Except WriteError Unit × Writer :=
  writer.send now (.solveEnd { solver })

/-- Report the value of a variable in an iteration. -/
def updateVariable (writer : Writer) (now : UInt64) (name : String) (iteration : List UInt32)
    (value : UInt64) : Except WriteError Unit × Writer :=
  writer.send now (.updateVariable { name, iteration, value })

/-- Report a new node of the search tree. -/
def addNode (writer : Writer) (now : UInt64) (descriptor : NodeDescriptor) :
    Except WriteError Unit × Writer :=
  writer.send now (.addNode descriptor)

/-- Report that a node of the search tree is closed. -/
def pruneNode (writer : Writer) (now : UInt64) (coordinate : Coordinate) :
    Except WriteError Unit × Writer :=
  writer.send now (.pruneNode { coordinate })

/-- Flush the sink. -/
def flush (writer : Writer) : Except WriteError Unit × Writer :=
  match writer.sink.flush with
  | (.error text, sink) => (.error (.io text), { writer with sink })
  | (.ok (), sink) => (.ok (), { writer with sink })

end Writer

end MixedInteger
