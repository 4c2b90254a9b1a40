import MixedInteger.Decimal.Shortest

/-! # Written numbers

How a binary64 number is written in a message. The digits are always the
shortest that read back; a notation decides where the point goes, when an
exponent is used, and whether a whole number shows its point.
-/

namespace MixedInteger

/-- The choices of a way to write numbers. -/
structure NumberStyle where
  /-- The powers of ten of a leading digit that are written without exponent, if
  not all of them are. -/
  positional : Option (Int × Int)
  /-- Whether a whole number written without exponent ends in a point and a zero. -/
  showsPoint : Bool

namespace NumberStyle

/-- Numbers are never written with an exponent, and whole numbers without a point. -/
def plain : NumberStyle := ⟨none, false⟩

/-- Magnitudes below `10 ^ -4` and from `10 ^ 16` on are written with an
exponent, and whole numbers below that show their point. -/
def general : NumberStyle := ⟨some (-4, 15), true⟩

/-- Whether a number with this power of ten of its leading digit is written
without exponent. -/
def isPositional (style : NumberStyle) (leading : Int) : Bool :=
  match style.positional with
  | some (least, greatest) => least ≤ leading && leading ≤ greatest
  | none => true

/-- Digits with the point in its place and no exponent. -/
def positionalText (style : NumberStyle) (digits : List Char) (exponent : Int) : List Char :=
  let point := if style.showsPoint then ['.', '0'] else []
  if 0 ≤ exponent then digits ++ List.replicate exponent.toNat '0' ++ point
  else
    let places := (-exponent).toNat
    let padded := List.replicate (places + 1 - digits.length) '0' ++ digits
    padded.take (padded.length - places) ++ ['.'] ++ padded.drop (padded.length - places)

/-- A decimal with an exponent: one digit, the others after a point, and the
power of ten of the first. -/
def exponentText (digits : List Char) (leading : Int) : List Char :=
  let mantissa :=
    match digits with
    | first :: second :: rest => first :: '.' :: second :: rest
    | short => short
  mantissa ++ ['e'] ++ (toString leading).toList

/-- A non-negative decimal. Zero has no leading digit and is written without
exponent. -/
def magnitudeText (style : NumberStyle) (decimal : Decimal) : List Char :=
  let digits := Nat.toDigits 10 decimal.coefficient
  let leading := decimal.exponent + (digits.length : Int) - 1
  if decimal.coefficient = 0 ∨ style.isPositional leading = true then
    style.positionalText digits decimal.exponent
  else exponentText digits leading

def text (style : NumberStyle) (bits : UInt64) : String :=
  let sign := if Decimal.isNegative bits then "-" else ""
  if Decimal.exponentField bits = 2047 then
    if Decimal.fractionField bits = 0 then sign ++ "inf" else "NaN"
  else sign ++ String.ofList (style.magnitudeText (Decimal.shortest bits))

end NumberStyle

end MixedInteger
