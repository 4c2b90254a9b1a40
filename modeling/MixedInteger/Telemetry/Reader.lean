import MixedInteger.Telemetry.Envelope

/-! # The telemetry reader

A reader takes frames off a source and decodes them. A frame whose body is
malformed is an error, and reading goes on behind it. A stream that ends or
fails inside a frame gives one error and nothing after it.
-/

namespace MixedInteger

/-- The next message, or nothing at the end of the stream. Reading may be tried
again after any answer. -/
def Source.readMessage (source : Source) : Except WireError (Option Message) × Source :=
  match source.readFrame with
  | (.error error, rest) => (.error error, rest)
  | (.ok none, rest) => (.ok none, rest)
  | (.ok (some body), rest) => ((Message.decode body).map some, rest)

/-- A consumer of the messages of a source, one after the other. -/
structure Reader where
  source : Source
  /-- Whether the stream has ended or can no longer be followed. -/
  isDone : Bool := false
  deriving DecidableEq, Repr

namespace Reader

/-- The next item: a message, or what is wrong with it, or nothing at the end. -/
def next (reader : Reader) : Option (Except WireError Message) × Reader :=
  if reader.isDone then (none, reader)
  else
    match Source.readFrame reader.source with
    | (.ok (some body), source) => (some (Message.decode body), { reader with source })
    | (.ok none, source) => (none, { source, isDone := true })
    | (.error error, source) => (some (.error error), { source, isDone := true })

/-- How much of a stream a reader may still go through. -/
def weight (reader : Reader) : Nat :=
  if reader.isDone then 0 else Source.weight reader.source + 1

/-- Every item brings a reader closer to the end of its stream. -/
theorem weight_next_lt {reader after : Reader} {item : Except WireError Message}
    (read : reader.next = (some item, after)) : after.weight < reader.weight := by
  unfold next at read
  split at read
  · cases read
  · rename_i going
    split at read
    · rename_i body source frame
      cases read
      have shorter := Source.weight_readFrame_lt frame
      simpa [weight, going] using shorter
    · cases read
    · cases read
      simp [weight, going]

/-- Every item of a stream, in order. -/
def items (reader : Reader) : List (Except WireError Message) :=
  match read : reader.next with
  | (none, _) => []
  | (some item, after) =>
      have : after.weight < reader.weight := weight_next_lt read
      item :: items after
termination_by reader.weight

end Reader

end MixedInteger
