/-! # Shortest decimals

The shortest decimal that reads back as a given binary64 number, and among the
shortest ones the nearest. A finite number is decoded into an integer times a
power of two, and the reals that round to it form an interval. For one, two, and
up to seventeen digits the two multiples of the matching power of ten that
enclose the number are tested against that interval, in exact arithmetic; the
first grid with a hit decides.
-/

namespace MixedInteger

/-- A non-negative decimal number: a coefficient times a power of ten. -/
structure Decimal where
  coefficient : Nat
  exponent : Int
  deriving DecidableEq, Repr

namespace Decimal

/-- A binary number with the interval of reals that round to it. All three
numerators are over the same denominator. -/
structure Rounding where
  value : Nat
  lower : Nat
  upper : Nat
  denominator : Nat
  /-- Whether the ends round to the number as well. -/
  closed : Bool

/-- The low 52 bits. -/
def fractionField (bits : UInt64) : Nat := (bits &&& 0xFFFFFFFFFFFFF).toNat

/-- The eleven bits of the exponent. -/
def exponentField (bits : UInt64) : Nat := (bits >>> 52 &&& 0x7FF).toNat

/-- Whether the sign bit is set. -/
def isNegative (bits : UInt64) : Bool := bits >>> 63 == 1

/-- The magnitude of a finite binary64 word. The gap below a power of two is
half the gap above it, except at the smallest normal number. -/
def rounding (bits : UInt64) : Rounding :=
  let fraction := fractionField bits
  let field := exponentField bits
  let mantissa := if field = 0 then fraction else fraction + 1 <<< 52
  let power : Nat := field - 1
  let below := if fraction = 0 ∧ 1 < field then 1 else 2
  let raise := power - 1076
  { value := (4 * mantissa) <<< raise
    lower := (4 * mantissa - below) <<< raise
    upper := (4 * mantissa + 2) <<< raise
    denominator := 1 <<< (1076 - power)
    closed := mantissa % 2 == 0 }

namespace Rounding

/-- The power of ten of the leading decimal digit of a positive number. -/
def magnitude (number : Rounding) : Int :=
  if number.denominator ≤ number.value then
    ((Nat.toDigits 10 (number.value / number.denominator)).length : Int) - 1
  else
    -((Nat.toDigits 10 ((number.denominator - 1) / number.value)).length : Int)

/-- Whether a decimal rounds to the number. -/
def contains (number : Rounding) (decimal : Decimal) : Bool :=
  let scaled := decimal.coefficient * Nat.pow 10 decimal.exponent.toNat * number.denominator
  let raise := Nat.pow 10 (-decimal.exponent).toNat
  if number.closed then number.lower * raise ≤ scaled && scaled ≤ number.upper * raise
  else number.lower * raise < scaled && scaled < number.upper * raise

/-- The largest multiple of a power of ten that is not above the number. -/
def floorAt (number : Rounding) (exponent : Int) : Decimal :=
  let divisor := Nat.pow 10 exponent.toNat * number.denominator
  ⟨number.value * Nat.pow 10 (-exponent).toNat / divisor, exponent⟩

/-- The next number of the same exponent. -/
def next (decimal : Decimal) : Decimal := { decimal with coefficient := decimal.coefficient + 1 }

/-- Whether the number lies nearer to a multiple below it than to the next one;
the middle belongs to the upper one. -/
def nearerBelow (number : Rounding) (below : Decimal) : Bool :=
  let raised := 2 * number.value * Nat.pow 10 (-below.exponent).toNat
  let middle :=
    (2 * below.coefficient + 1) * Nat.pow 10 below.exponent.toNat * number.denominator
  raised < middle

/-- The decimal with a given number of digits that reads back as the number, if
there is one; the nearer of two. -/
def atDigits (number : Rounding) (digits : Nat) : Option Decimal :=
  let below := number.floorAt (number.magnitude - (digits : Int) + 1)
  match number.contains below, number.contains (next below) with
  | true, true => some (if number.nearerBelow below then below else next below)
  | true, false => some below
  | false, true => some (next below)
  | false, false => none

end Rounding

/-- Take zeros off the end of the coefficient, as many as the fuel allows. -/
def stripZeros : Nat → Decimal → Decimal
  | 0, decimal => decimal
  | fuel + 1, decimal =>
      if decimal.coefficient % 10 = 0 ∧ decimal.coefficient ≠ 0 then
        stripZeros fuel ⟨decimal.coefficient / 10, decimal.exponent + 1⟩
      else decimal

/-- The shortest decimal that reads back as the magnitude of a finite binary64
word. -/
def shortest (bits : UInt64) : Decimal :=
  let number := rounding bits
  if number.value = 0 then ⟨0, 0⟩
  else
    let found := (List.range 17).findSome? fun digits => number.atDigits (digits + 1)
    stripZeros 17 (found.getD (number.floorAt (number.magnitude - 16)))

end Decimal

end MixedInteger
