import MixedInteger.Wire.Basic

/-! # Sinks

A sink receives bytes piecewise. Its behaviour is a plan: each attempt to write
takes one entry, which says how many bytes are accepted, that the attempt is to
be repeated, or that it fails. A sink without a plan accepts everything.
-/

namespace MixedInteger

/-- What happens to one attempt to write. -/
inductive WriteOutcome where
  /-- At most this many bytes are accepted. -/
  | accept (limit : Nat)
  /-- Nothing is accepted, and the attempt is repeated. -/
  | interrupted
  /-- The attempt fails. -/
  | fail (text : String)
  deriving DecidableEq, Repr

/-- A receiver of bytes. -/
structure Sink where
  /-- The outcomes of the attempts to come. -/
  plan : List WriteOutcome := []
  /-- The bytes accepted so far. -/
  received : Bytes := []
  deriving DecidableEq, Repr

namespace Sink

/-- The error of a sink that accepts nothing. -/
def stalled : String := "failed to write whole buffer"

/-- The error of an interrupted write, after which writing is tried again. -/
def interruption : String := "interrupted"

/-- Write bytes until all are accepted or an attempt fails. The answer is the
failure, if there was one, with the bytes accepted before it and the plan that
is left. -/
def attempt : List WriteOutcome → Bytes → Except String Unit × Bytes × List WriteOutcome
  | plan, [] => (.ok (), [], plan)
  | [], bytes => (.ok (), bytes, [])
  | .interrupted :: plan, bytes => attempt plan bytes
  | .fail text :: plan, _ => (.error text, [], plan)
  | .accept 0 :: plan, _ => (.error stalled, [], plan)
  | .accept limit :: plan, bytes =>
      let (outcome, accepted, rest) := attempt plan (bytes.drop limit)
      (outcome, bytes.take limit ++ accepted, rest)

/-- Write bytes until all are accepted or an attempt fails. What was accepted
before a failure stays in the sink. -/
def writeAll (sink : Sink) (bytes : Bytes) : Except String Unit × Sink :=
  let (outcome, accepted, plan) := attempt sink.plan bytes
  (outcome, { plan, received := sink.received ++ accepted })

/-- Flush the sink, which takes one entry of the plan and fails if that entry is
not an acceptance. -/
def flush (sink : Sink) : Except String Unit × Sink :=
  match sink.plan with
  | [] => (.ok (), sink)
  | .accept _ :: plan => (.ok (), { sink with plan })
  | .interrupted :: plan => (.error interruption, { sink with plan })
  | .fail text :: plan => (.error text, { sink with plan })

end Sink

end MixedInteger
