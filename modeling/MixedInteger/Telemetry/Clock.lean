/-! # Clocks

A clock that moves only when it is told to. It counts milliseconds in 64 bits
and wraps around.
-/

namespace MixedInteger

/-- A clock that moves only when it is told to. -/
structure Clock where
  /-- The time in milliseconds. -/
  now : UInt64 := 0
  deriving DecidableEq, Repr

namespace Clock

/-- Set the clock, also back. -/
def set (_ : Clock) (millis : UInt64) : Clock := ⟨millis⟩

/-- Let time pass, counted modulo the word. -/
def advance (clock : Clock) (millis : UInt64) : Clock := ⟨clock.now + millis⟩

end Clock

end MixedInteger
