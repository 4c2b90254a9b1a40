import Mathlib.Data.List.Induction
import MixedInteger.Proofs.Telemetry.Layout

/-! # Encodings one after the other

Bytes that are made up of several encodings decode to one message. Of several
envelopes the last payload counts, and of the other fields the last value that is
not the default. Two messages of one of the types that a payload has are merged
field by field (`decode_concatenation`).
-/

namespace MixedInteger

open Decoder WireMessage

section LastSet

variable {α : Type} [DecidableEq α]

/-- The last of several values that is not the default, or else the default. -/
def lastSet (default : α) (values : List α) : α :=
  (values.filter (· ≠ default)).getLast?.getD default

/-- A further value supersedes the last one before it. -/
theorem lastSet_concat (default : α) (values : List α) (value : α) :
    lastSet default (values ++ [value]) = supersede default (lastSet default values) value := by
  rw [lastSet, List.filter_append]
  by_cases unset : value = default
  · rw [supersede_of_eq unset, List.filter_singleton]
    simp only [unset, ne_eq, not_true_eq_false, decide_false, cond_false, List.append_nil]
    rfl
  · rw [supersede_of_ne unset, List.filter_singleton]
    simp only [ne_eq, unset, not_false_eq_true, decide_true, cond_true, List.getLast?_concat,
      Option.getD_some]

end LastSet

namespace Envelope

/-- The envelope that messages one after the other fill. -/
def ofMessages (messages : List Message) : Envelope where
  name := lastSet "" (messages.map Message.name)
  runId := lastSet "" (messages.map Message.runId)
  timestamp := lastSet 0 (messages.map Message.timestamp)
  payload := messages.getLast?.map Message.payload

theorem update_ofMessages (messages : List Message) (message : Message) :
    (ofMessages messages).update message = ofMessages (messages ++ [message]) := by
  simp only [update, ofMessages, List.map_append, List.map_singleton, lastSet_concat,
    List.getLast?_concat, Option.map_some]

end Envelope

/-- Messages one after the other fill a blank envelope. -/
theorem Message.merges_flatMap_encode (messages : List Message) :
    Merges Envelope.merge {} (messages.flatMap encode) (Envelope.ofMessages messages) := by
  -- From the right end, since it is the last message that decides.
  induction messages using List.reverseRecOn with
  | nil => exact Merges.refl _
  | append_singleton messages message ih =>
      rw [List.flatMap_append, List.flatMap_singleton, ← Envelope.update_ofMessages]
      exact ih.trans (merges_encode _ message)

/-- **Encodings one after the other are merged.** Several messages decode to the
payload of the last one, under the last name, run and time that are not the default.
Of two messages of one of the types that a payload has, numbers of type binary64 are
those of the second, other scalars and strings those of the second unless they are
the default there, and the values of a repeated field are those of the first followed
by those of the second. -/
theorem decode_concatenation :
    (∀ (messages : List Message) (nonempty : messages ≠ []),
      (messages.flatMap Message.encode).length < 2 ^ 64 →
        Message.decode (messages.flatMap Message.encode) = .ok
          { name := lastSet "" (messages.map Message.name)
            runId := lastSet "" (messages.map Message.runId)
            timestamp := lastSet 0 (messages.map Message.timestamp)
            payload := (messages.getLast nonempty).payload }) ∧
    (∀ earlier later : TextMessage, (encode earlier ++ encode later).length < 2 ^ 64 →
      decode (encode earlier ++ encode later) = .ok (earlier.update later)) ∧
    (∀ earlier later : TensorMessage, (encode earlier ++ encode later).length < 2 ^ 64 →
      decode (encode earlier ++ encode later) = .ok (earlier.update later)) ∧
    (∀ earlier later : SolverEvent, (encode earlier ++ encode later).length < 2 ^ 64 →
      decode (encode earlier ++ encode later) = .ok (earlier.update later)) ∧
    (∀ earlier later : UpdateVariable, (encode earlier ++ encode later).length < 2 ^ 64 →
      decode (encode earlier ++ encode later) = .ok (earlier.update later)) ∧
    (∀ earlier later : VariableInformation, (encode earlier ++ encode later).length < 2 ^ 64 →
      decode (encode earlier ++ encode later) = .ok (earlier.update later)) ∧
    (∀ earlier later : NodeDescriptor, (encode earlier ++ encode later).length < 2 ^ 64 →
      decode (encode earlier ++ encode later) = .ok (earlier.update later)) ∧
    (∀ earlier later : PruneMessage, (encode earlier ++ encode later).length < 2 ^ 64 →
      decode (encode earlier ++ encode later) = .ok (earlier.update later)) := by
  refine ⟨fun messages nonempty fits => ?_, FieldLayout.decode_append, FieldLayout.decode_append,
    FieldLayout.decode_append, FieldLayout.decode_append, FieldLayout.decode_append,
    FieldLayout.decode_append, FieldLayout.decode_append⟩
  have found := (Message.merges_flatMap_encode messages).mergeFields_eq_ok fits
  rw [Message.decode, found]
  simp only [Envelope.ofMessages, List.getLast?_eq_some_getLast nonempty, Option.map_some]
  rfl

/-- A gap that is reported twice, the second time without its name and without a time. -/
def gapReports : List Message :=
  [{ name := "bab", runId := "first", timestamp := 5
     payload := .updateVariable { name := "gap", iteration := [1], value := 1 } },
    { name := "", runId := "second", timestamp := 0
      payload := .updateVariable { name := "", iteration := [2], value := 0 } }]

theorem decode_concatenation_gap :
    Message.decode (gapReports.flatMap Message.encode) = .ok
        { name := "bab", runId := "second", timestamp := 5
          payload := .updateVariable { name := "", iteration := [2], value := 0 } } ∧
      decode (encode { name := "gap", iteration := [1], value := 1 : UpdateVariable } ++
          encode { name := "", iteration := [2], value := 0 : UpdateVariable }) =
        .ok { name := "gap", iteration := [1, 2], value := 0 : UpdateVariable } := by
  obtain ⟨messages, -, -, -, updates, -⟩ := decode_concatenation
  exact ⟨messages gapReports (by decide) (by decide +kernel),
    updates ⟨"gap", [1], 1⟩ ⟨"", [2], 0⟩ (by decide +kernel)⟩

end MixedInteger
