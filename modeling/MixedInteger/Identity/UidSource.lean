import MixedInteger.Contract

/-! # The source of node identities

Identities are issued in ascending order from a 64-bit counter. The counter
advances before the last word is refused, so a source that has been asked once
too often starts again at zero.
-/

namespace MixedInteger

/-- A counter that issues node identities. -/
structure UidSource where
  upcoming : UInt64 := 0
  deriving DecidableEq, Repr

namespace UidSource

/-- The counter after one request, whether or not it was granted. -/
def advance (source : UidSource) : UidSource := ⟨source.upcoming + 1⟩

/-- Issue one identity. The largest word is never issued. -/
def issue (source : UidSource) : Except Violation Uid × UidSource :=
  (if source.upcoming = 18446744073709551615 then .error .uidsExhausted
    else .ok ⟨source.upcoming⟩, source.advance)

/-- The answers to a number of requests in turn, each with the identity that
comes next after it. -/
def requests (source : UidSource) : Nat → List (Except Violation Uid × UInt64)
  | 0 => []
  | count + 1 =>
      (source.issue.1, source.advance.upcoming) :: source.advance.requests count

end UidSource

end MixedInteger
