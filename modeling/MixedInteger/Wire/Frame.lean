import MixedInteger.Stream.Source
import MixedInteger.Wire.Varint

/-! # Frames

On a stream, every message body is a frame: its length followed by its bytes. A
stream may end between two frames; an end inside a frame cuts it short.
-/

namespace MixedInteger

/-- Bytes with their number in front. -/
def frameOf (body : Bytes) : Bytes := Varint.encode body.length ++ body

namespace Source

/-- Read one byte, or find the end of the stream. -/
def readByte (source : Source) : Except WireError (Option UInt8) × Source :=
  match readUpTo 1 source with
  | (.ok bytes, rest) => (.ok bytes.head?, rest)
  | (.error text, rest) => (.error (.io text), rest)

/-- Read the digits of a variable-length integer, at most a budget of them, and
add them to a total at ascending powers of 128. -/
def readDigits (isFirst : Bool) :
    (budget : Nat) → (weight total : Nat) → Source → Except WireError (Option Nat) × Source
  | 0, _, _, source => (.error .varintOverflow, source)
  | budget + 1, weight, total, source =>
      match readByte source with
      | (.error error, rest) => (.error error, rest)
      | (.ok none, rest) =>
          (if isFirst then .ok none else .error (.truncated .frameLength), rest)
      | (.ok (some byte), rest) =>
          let sum := total + Varint.digit byte * weight
          if Varint.continues byte then readDigits false budget (weight * 128) sum rest
          else (.ok (some sum), rest)

/-- The length of the next frame, or nothing at the end of the stream. -/
def readLength (source : Source) : Except WireError (Option UInt64) × Source :=
  let (length, rest) := readDigits true Varint.maxLength 1 0 source
  (length.map (·.map UInt64.ofNat), rest)

/-- The body of a frame, whose length is known. -/
def readBody (length : UInt64) (source : Source) : Except WireError Bytes × Source :=
  match readUpTo length.toNat source with
  | (.error text, rest) => (.error (.io text), rest)
  | (.ok body, rest) =>
      (if body.length < length.toNat then .error (.truncated .frameBody) else .ok body, rest)

/-- The body of the next frame, or nothing at the end of the stream. -/
def readFrame (source : Source) : Except WireError (Option Bytes) × Source :=
  match readLength source with
  | (.error error, rest) => (.error error, rest)
  | (.ok none, rest) => (.ok none, rest)
  | (.ok (some length), rest) =>
      let (body, rest) := readBody length rest
      (body.map some, rest)

/-- A byte that is read is taken off the source. -/
theorem weight_readByte_lt {source rest : Source} {byte : UInt8}
    (read : readByte source = (.ok (some byte), rest)) : weight rest < weight source := by
  induction source with
  | nil => cases read
  | cons delivery source ih =>
      cases delivery with
      | ended => cases read
      | failed text => cases read
      | interrupted =>
          have := ih read
          simp only [weight]
          omega
      | chunk bytes =>
          cases bytes with
          | nil => cases read
          | cons first bytes =>
              simp only [readByte, readUpTo, Nat.zero_le, ↓reduceIte, List.drop_zero,
                Prod.mk.injEq] at read
              obtain ⟨-, rfl⟩ := read
              simp only [weight, List.length_cons]
              split
              · omega
              · simp only [weight]
                omega

/-- A number that is read is taken off the source. -/
theorem weight_readDigits_lt {isFirst : Bool} {budget scale total number : Nat}
    {source rest : Source}
    (read : readDigits isFirst budget scale total source = (.ok (some number), rest)) :
    weight rest < weight source := by
  induction budget generalizing isFirst scale total source with
  | zero => cases read
  | succ budget ih =>
      unfold readDigits at read
      split at read
      · cases read
      · split at read <;> cases read
      · rename_i byte after first
        have shorter := weight_readByte_lt first
        split at read
        · exact Nat.lt_trans (ih read) shorter
        · cases read
          exact shorter

/-- A frame that is read is taken off the source. -/
theorem weight_readFrame_lt {source rest : Source} {body : Bytes}
    (read : readFrame source = (.ok (some body), rest)) : weight rest < weight source := by
  unfold readFrame readLength at read
  cases digits : readDigits true Varint.maxLength 1 0 source with
  | mk found after =>
      rw [digits] at read
      cases found with
      | error error => cases read
      | ok number =>
          cases number with
          | none => cases read
          | some number =>
              refine Nat.lt_of_le_of_lt ?_ (weight_readDigits_lt digits)
              have rests : (readBody (UInt64.ofNat number) after).2 = rest :=
                congrArg Prod.snd read
              rw [← rests]
              refine Nat.le_trans (Nat.le_of_eq ?_)
                (weight_readUpTo_le (UInt64.ofNat number).toNat after)
              unfold readBody
              split <;> simp_all

end Source

end MixedInteger
