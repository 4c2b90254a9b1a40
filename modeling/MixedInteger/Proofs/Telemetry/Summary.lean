import Mathlib.Data.List.Basic
import MixedInteger.Telemetry.Monitor

/-! # What a monitor knows of a run

A monitor keeps a run up to date message by message. What it knows in the end can be told
from the list of the run's messages at once (`RunState.Sums`): the solver announced last,
whether an end was announced, how many messages there were and when the latest was sent,
the value reported last for every quantity, and the search tree that the announcements
build when those that contradict it are passed over.
-/

namespace MixedInteger

namespace Payload

/-- The solver that a payload announces. -/
def solver? : Payload → Option String
  | .solveStart body => some body.solver
  | _ => none

/-- Whether a payload announces the end of a solve. -/
def endsSolve : Payload → Bool
  | .solveEnd _ => true
  | _ => false

/-- The value that a payload reports for a quantity. -/
def quantity? (name : String) : Payload → Option UInt64
  | .updateVariable body => if body.name = name then some body.value else none
  | _ => none

end Payload

/-- What is found last in a longer list is found at its end, or it was found before. -/
theorem getLast?_filterMap_concat {α β : Type} (find : α → Option β) (earlier : List α)
    (last : α) : ((earlier ++ [last]).filterMap find).getLast? =
      (find last).or (earlier.filterMap find).getLast? := by
  rw [List.filterMap_append, List.getLast?_append]
  cases found : find last with
  | none => rw [List.filterMap_cons_none found]; rfl
  | some value => rw [List.filterMap_cons_some found]; rfl

namespace RunState

/-- What a payload says about the run leaves the search tree alone. -/
theorem note_tracker (run : RunState) (payload : Payload) :
    (run.note payload).tracker = run.tracker := by
  cases payload <;> rfl

/-- **What a message leaves of a run.** The solver, the end, the quantities and the number and
time of the messages are updated whether or not the message contradicts the search tree. -/
theorem observe_snd (run : RunState) (message : Message) : (run.observe message).2 =
    { tracker := (run.tracker.apply message.payload).toOption.getD run.tracker
      solver := message.payload.solver?.or run.solver
      finished := run.finished || message.payload.endsSolve
      messages := run.messages + 1
      lastTimestamp := max run.lastTimestamp message.timestamp
      quantities := (run.note message.payload).quantities } := by
  have noted : (run.count message.timestamp).note message.payload =
      { tracker := run.tracker
        solver := message.payload.solver?.or run.solver
        finished := run.finished || message.payload.endsSolve
        messages := run.messages + 1
        lastTimestamp := max run.lastTimestamp message.timestamp
        quantities := (run.note message.payload).quantities } := by
    cases message.payload <;> simp [note, count, Payload.solver?, Payload.endsSolve]
  rw [observe, noted]
  cases run.tracker.apply message.payload <;> rfl

/-- A quantity has the value that the payload reports for it, or the one it had. -/
theorem getElem?_quantities_note (run : RunState) (payload : Payload) (name : String) :
    (run.note payload).quantities[name]? = (payload.quantity? name).or run.quantities[name]? := by
  cases payload with
  | updateVariable body =>
      simp only [note, Payload.quantity?, Std.ExtTreeMap.getElem?_insert,
        Std.LawfulEqCmp.compare_eq_iff_eq]
      split <;> rfl
  | text | tensor | solveStart | solveEnd | addNode | pruneNode => rfl

/-- What a run that has met some messages is told to know. -/
structure Sums (run : RunState) (messages : List Message) : Prop where
  tracker_eq : run.tracker = messages.foldl
    (fun tracker message => (tracker.apply message.payload).toOption.getD tracker) {}
  solver_eq : run.solver = (messages.filterMap fun message => message.payload.solver?).getLast?
  finished_eq : run.finished = messages.any fun message => message.payload.endsSolve
  messages_eq : run.messages = messages.length
  lastTimestamp_eq : run.lastTimestamp = (messages.map Message.timestamp).foldl max 0
  quantities_eq : ∀ name, run.quantities[name]? =
    (messages.filterMap fun message => message.payload.quantity? name).getLast?

theorem sums_nil : ({} : RunState).Sums [] where
  tracker_eq := rfl
  solver_eq := rfl
  finished_eq := rfl
  messages_eq := rfl
  lastTimestamp_eq := rfl
  quantities_eq _ := Std.ExtTreeMap.getElem?_empty

/-- A message is added to what a run knows. -/
theorem Sums.observe {run : RunState} {messages : List Message} (sums : run.Sums messages)
    (message : Message) : (run.observe message).2.Sums (messages ++ [message]) := by
  rw [observe_snd]
  constructor
  · rw [sums.tracker_eq, List.foldl_concat]
  · rw [getLast?_filterMap_concat, sums.solver_eq]
  · rw [List.any_append, sums.finished_eq, List.any_cons, List.any_nil, Bool.or_false]
  · rw [List.length_append, sums.messages_eq, List.length_singleton]
  · rw [List.map_append, List.map_singleton, List.foldl_concat, sums.lastTimestamp_eq]
  · intro name
    rw [getElem?_quantities_note, getLast?_filterMap_concat, sums.quantities_eq]

end RunState

end MixedInteger
