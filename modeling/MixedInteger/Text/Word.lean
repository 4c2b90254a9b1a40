/-! # Written words

The decimal form of a 32-bit word, and its reader. The reader accepts a plus
sign and leading zeros, works from left to right, and reports the first thing
that is wrong.
-/

namespace MixedInteger.Text

/-- Why a text is not a 32-bit word. -/
inductive WordError where
  | empty
  | invalidDigit
  | tooLarge
  deriving DecidableEq, Repr

def WordError.message : WordError → String
  | empty => "cannot parse integer from empty string"
  | invalidDigit => "invalid digit found in string"
  | tooLarge => "number too large to fit in target type"

def digitValue? (c : Char) : Option Nat :=
  if '0' ≤ c ∧ c ≤ '9' then some (c.toNat - '0'.toNat) else none

/-- Append digits to a number that fits 32 bits. -/
def readDigits : (total : Nat) → List Char → Except WordError Nat
  | total, [] => .ok total
  | total, c :: rest =>
      match digitValue? c with
      | none => .error .invalidDigit
      | some digit =>
          let next := total * 10 + digit
          if next < UInt32.size then readDigits next rest else .error .tooLarge

/-- The word that a text denotes. -/
def readWord (text : List Char) : Except WordError UInt32 :=
  match text with
  | [] => .error .empty
  | ['+'] => .error .invalidDigit
  | '+' :: digits => (readDigits 0 digits).map UInt32.ofNat
  | digits => (readDigits 0 digits).map UInt32.ofNat

/-- A word in decimal digits. -/
def writeWord (word : UInt32) : List Char := Nat.toDigits 10 word.toNat

/-- The pieces of a text between the occurrences of a separator. -/
def pieces (separator : Char) : List Char → List (List Char)
  | [] => [[]]
  | c :: rest =>
      if c = separator then [] :: pieces separator rest
      else
        match pieces separator rest with
        | [] => [[c]]
        | first :: others => (c :: first) :: others

end MixedInteger.Text
