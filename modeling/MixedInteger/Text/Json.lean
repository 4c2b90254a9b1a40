/-! # JSON texts

A reader of JSON texts into values, and a writer of strings. Strings are kept as
the code points that their characters and escapes denote, so an escape for half
of a surrogate pair can be read; only a string that is used as text has to pair
its surrogates. Numbers are checked against the grammar and otherwise ignored.
-/

namespace MixedInteger.Json

/-- The code points of a string, among which there may be surrogates. -/
abbrev CodePoints := List Nat

/-- A JSON value. No number is used, so the value of none is kept. -/
inductive Value where
  | null
  | bool (value : Bool)
  | number
  | string (points : CodePoints)
  | array (entries : List Value)
  | object (members : List (CodePoints × Value))

def isBlank (c : Char) : Bool := c = ' ' || c = '\n' || c = '\t' || c = '\r'

/-- A text without the blanks in front. -/
def skipBlanks (text : List Char) : List Char := text.dropWhile isBlank

def hexDigit? (c : Char) : Option Nat :=
  if '0' ≤ c ∧ c ≤ '9' then some (c.toNat - 48)
  else if 'a' ≤ c ∧ c ≤ 'f' then some (c.toNat - 87)
  else if 'A' ≤ c ∧ c ≤ 'F' then some (c.toNat - 55)
  else none

/-- The number of four hexadecimal digits, and what follows them. -/
def readHex4 : List Char → Option (Nat × List Char)
  | a :: b :: c :: d :: rest => do
      let a ← hexDigit? a
      let b ← hexDigit? b
      let c ← hexDigit? c
      let d ← hexDigit? d
      return (((a * 16 + b) * 16 + c) * 16 + d, rest)
  | _ => none

/-- The code point of an escape without a number. -/
def simpleEscape? : Char → Option Nat
  | '"' => some 34
  | '\\' => some 92
  | '/' => some 47
  | 'b' => some 8
  | 'f' => some 12
  | 'n' => some 10
  | 'r' => some 13
  | 't' => some 9
  | _ => none

/-- The rest of a string whose opening quote has been read, and what follows the
closing quote. The fuel bounds the number of characters. -/
def readString : (fuel : Nat) → List Char → Option (CodePoints × List Char)
  | 0, _ => none
  | _ + 1, [] => none
  | _ + 1, '"' :: rest => some ([], rest)
  | fuel + 1, '\\' :: 'u' :: rest => do
      let (point, rest) ← readHex4 rest
      let (points, rest) ← readString fuel rest
      return (point :: points, rest)
  | fuel + 1, '\\' :: c :: rest => do
      let point ← simpleEscape? c
      let (points, rest) ← readString fuel rest
      return (point :: points, rest)
  | fuel + 1, c :: rest =>
      if c.toNat < 32 ∨ c = '\\' then none
      else do
        let (points, rest) ← readString fuel rest
        return (c.toNat :: points, rest)

/-- What follows one or more digits. -/
def skipDigits? (text : List Char) : Option (List Char) :=
  match text with
  | c :: rest => if c.isDigit then some (rest.dropWhile Char.isDigit) else none
  | [] => none

/-- What follows the integer part of a number, which has no leading zero. -/
def skipInteger? : List Char → Option (List Char)
  | '0' :: rest =>
      match rest with
      | c :: _ => if c.isDigit then none else some rest
      | [] => some rest
  | text => skipDigits? text

/-- What follows the fraction of a number, if it has one. -/
def skipFraction? : List Char → Option (List Char)
  | '.' :: rest => skipDigits? rest
  | text => some text

/-- Skip an exponent if there is one. -/
def skipExponent? : List Char → Option (List Char)
  | c :: rest =>
      if c = 'e' ∨ c = 'E' then
        match rest with
        | '+' :: digits => skipDigits? digits
        | '-' :: digits => skipDigits? digits
        | digits => skipDigits? digits
      else some (c :: rest)
  | [] => some []

/-- Skip a number. -/
def skipNumber? (text : List Char) : Option (List Char) := do
  let unsigned := match text with
    | '-' :: rest => rest
    | other => other
  let rest ← skipInteger? unsigned
  let rest ← skipFraction? rest
  skipExponent? rest

/-- What follows a fixed word at the front of a text. -/
def skipWord? (word : String) (text : List Char) : Option (List Char) :=
  if word.toList.isPrefixOf text then some (text.drop word.length) else none

mutual

/-- The value at the front of a text that has no blank in front, and what
follows it. -/
def readValue : (fuel : Nat) → List Char → Option (Value × List Char)
  | 0, _ => none
  | fuel + 1, text =>
      match text with
      | 'n' :: _ => (skipWord? "null" text).map fun rest => (.null, rest)
      | 't' :: _ => (skipWord? "true" text).map fun rest => (.bool true, rest)
      | 'f' :: _ => (skipWord? "false" text).map fun rest => (.bool false, rest)
      | '"' :: rest => (readString fuel rest).map fun (points, rest) => (.string points, rest)
      | '[' :: rest =>
          match skipBlanks rest with
          | ']' :: rest => some (.array [], rest)
          | first => (readEntries fuel first).map fun (entries, rest) => (.array entries, rest)
      | '\x7b' :: rest =>
          match skipBlanks rest with
          | '\x7d' :: rest => some (.object [], rest)
          | first => (readMembers fuel first).map fun (members, rest) => (.object members, rest)
      | _ => (skipNumber? text).map fun rest => (.number, rest)

/-- The entries of an array from one on that has no blank in front, and what
follows the closing bracket. -/
def readEntries : (fuel : Nat) → List Char → Option (List Value × List Char)
  | 0, _ => none
  | fuel + 1, text => do
      let (entry, rest) ← readValue fuel text
      match skipBlanks rest with
      | ']' :: rest => return ([entry], rest)
      | ',' :: rest => do
          let (entries, rest) ← readEntries fuel (skipBlanks rest)
          return (entry :: entries, rest)
      | _ => none

/-- The members of an object from one on that has no blank in front, and what
follows the closing brace. -/
def readMembers : (fuel : Nat) → List Char → Option (List (CodePoints × Value) × List Char)
  | 0, _ => none
  | fuel + 1, text =>
      match text with
      | '"' :: rest => do
          let (name, rest) ← readString fuel rest
          match skipBlanks rest with
          | ':' :: rest => do
              let (value, rest) ← readValue fuel (skipBlanks rest)
              match skipBlanks rest with
              | '\x7d' :: rest => return ([(name, value)], rest)
              | ',' :: rest => do
                  let (members, rest) ← readMembers fuel (skipBlanks rest)
                  return ((name, value) :: members, rest)
              | _ => none
          | _ => none
      | _ => none

end

/-- The value that a whole text denotes. Every step of the reader takes at least
one character, so the length of the text bounds their number. -/
def parse (text : String) : Option Value :=
  let chars := text.toList
  match readValue (2 * chars.length + 2) (skipBlanks chars) with
  | some (value, rest) => if (skipBlanks rest).isEmpty then some value else none
  | none => none

/-- Whether a code point is the first half of a surrogate pair. -/
def isHighSurrogate (point : Nat) : Bool := 0xd800 ≤ point && point < 0xdc00

/-- Whether a code point is the second half of a surrogate pair. -/
def isLowSurrogate (point : Nat) : Bool := 0xdc00 ≤ point && point < 0xe000

/-- The characters of a string whose surrogates are all paired. -/
def charsOf? : CodePoints → Option (List Char)
  | [] => some []
  | high :: low :: rest =>
      if isHighSurrogate high then
        if isLowSurrogate low then
          (charsOf? rest).map
            (Char.ofNat (0x10000 + (high - 0xd800) * 0x400 + (low - 0xdc00)) :: ·)
        else none
      else if isLowSurrogate high then none
      else (charsOf? (low :: rest)).map (Char.ofNat high :: ·)
  | [point] =>
      if isHighSurrogate point || isLowSurrogate point then none else some [Char.ofNat point]

/-- The text of a string whose surrogates are all paired. -/
def textOf? (points : CodePoints) : Option String := (charsOf? points).map String.ofList

/-- A character of a string, escaped if need be. -/
def writeChar (c : Char) : List Char :=
  if c = '"' then ['\\', '"']
  else if c = '\\' then ['\\', '\\']
  else if c.toNat = 8 then ['\\', 'b']
  else if c.toNat = 12 then ['\\', 'f']
  else if c = '\n' then ['\\', 'n']
  else if c = '\r' then ['\\', 'r']
  else if c = '\t' then ['\\', 't']
  else if c.toNat < 32 then
    ['\\', 'u', '0', '0', Nat.digitChar (c.toNat / 16), Nat.digitChar (c.toNat % 16)]
  else [c]

/-- A text as a string. -/
def writeString (text : String) : String :=
  String.ofList ('"' :: text.toList.flatMap writeChar ++ ['"'])

def writeBool (value : Bool) : String := if value then "true" else "false"

/-- The written form of an object, given the written forms of its members. -/
def writeObject (members : List (String × String)) : String :=
  "\x7b" ++ ",".intercalate (members.map fun (name, value) => writeString name ++ ":" ++ value)
    ++ "\x7d"

end MixedInteger.Json
