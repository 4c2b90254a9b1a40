import MixedInteger.Wire.Basic

/-! # Sources

A source delivers bytes piecewise. Between the pieces a read may find the end of
the stream, be interrupted, or fail. The weight of a source bounds what it may
still deliver, and reading never adds to it.
-/

namespace MixedInteger

/-- What a source does at one point of the stream. -/
inductive Delivery where
  /-- Bytes, of which one read may take a part. -/
  | chunk (bytes : Bytes)
  /-- One read that finds the end of the stream. -/
  | ended
  /-- One read that is repeated. -/
  | interrupted
  /-- One read that fails. -/
  | failed (text : String)
  deriving DecidableEq, Repr

/-- Where bytes come from. After its last delivery a source is at its end. -/
abbrev Source := List Delivery

namespace Source

/-- Read up to a number of bytes; fewer if the stream ends before. Nothing is
taken off the source once all bytes are there. What is read before a failure is
lost. -/
def readUpTo : (count : Nat) → Source → Except String Bytes × Source
  | 0, source => (.ok [], source)
  | _ + 1, [] => (.ok [], [])
  | _ + 1, .ended :: source => (.ok [], source)
  | _ + 1, .chunk [] :: source => (.ok [], source)
  | count + 1, .interrupted :: source => readUpTo (count + 1) source
  | _ + 1, .failed text :: source => (.error text, source)
  | count + 1, .chunk (byte :: bytes) :: source =>
      if count ≤ bytes.length then
        let rest := bytes.drop count
        (.ok (byte :: bytes.take count), if rest.isEmpty then source else .chunk rest :: source)
      else
        let (tail, rest) := readUpTo (count - bytes.length) source
        (tail.map fun later => byte :: bytes ++ later, rest)

/-- How much a source may still deliver: its bytes, and one for each delivery. -/
def weight : Source → Nat
  | [] => 0
  | .chunk bytes :: source => bytes.length + 1 + weight source
  | _ :: source => 1 + weight source

/-- Reading takes deliveries off a source and adds none. -/
theorem weight_readUpTo_le (count : Nat) (source : Source) :
    weight (readUpTo count source).2 ≤ weight source := by
  fun_induction readUpTo count source with
  | case1 | case2 => exact Nat.le_refl _
  | case3 | case4 | case6 => simp only [weight]; omega
  | case5 count source ih => simp only [weight]; omega
  | case7 count byte bytes source enough rest =>
      simp only [weight, List.length_cons]
      split
      · omega
      · simp only [weight, rest, List.length_drop]
        omega
  | case8 count byte bytes source short tail rest read ih =>
      simp only [read] at ih
      simp only [weight, List.length_cons]
      omega

end Source

end MixedInteger
