import MixedInteger.Wire.Message

/-! # Reading with a cursor

A decoder hands on the bytes that are left. A walk reads the same data the way a machine
does it: the whole buffer stays where it is, and a cursor moves over it. Each move, each
slice, each shift of a word and each round of a loop is checked, and a walk whose check
fails ends in a breach, which is neither a value nor an error of the data. A nested body is
a buffer of its own, which is all that the walk over it can see.
-/

namespace MixedInteger

/-- The end of a walk that no input may bring about. -/
inductive Breach where
  /-- The cursor would stand behind the end of its buffer. -/
  | cursorOutside (position length : Nat)
  /-- A slice would reach beyond the end of the buffer. -/
  | sliceOutside (start stop length : Nat)
  /-- A word of 64 bits would be shifted by 64 bits or more. -/
  | shiftTooFar (amount : Nat)
  /-- A word would be made of more or fewer than eight bytes. -/
  | wordSize (size : Nat)
  /-- A loop would go on when its rounds are used up. -/
  | endless
  deriving DecidableEq, Repr

/-- A position in a buffer. -/
structure Cursor where
  buffer : Bytes
  position : Nat
  deriving DecidableEq, Repr

namespace Cursor

/-- The cursor at the front of a buffer. -/
def start (buffer : Bytes) : Cursor := ⟨buffer, 0⟩

/-- Whether a cursor stands in its buffer or right behind it. -/
def Inside (cursor : Cursor) : Prop := cursor.position ≤ cursor.buffer.length

/-- The bytes from the cursor on. -/
def unread (cursor : Cursor) : Bytes := cursor.buffer.drop cursor.position

/-- The cursor a number of bytes further on. -/
def move (cursor : Cursor) (count : Nat) : Cursor :=
  { cursor with position := cursor.position + count }

end Cursor

/-- A reader that moves a cursor over a buffer. -/
structure Walk (α : Type) where
  /-- Read from where a cursor stands: what was found and where the cursor stands then. -/
  runOn : Cursor → Except Breach (Except WireError α × Cursor)

namespace Walk

variable {α β M : Type}

/-- Answer without moving. -/
protected def pure (value : α) : Walk α := ⟨fun cursor => .ok (.ok value, cursor)⟩

/-- What one walk finds from where another has ended with a value. -/
def continueWith (first : Except Breach (Except WireError α × Cursor)) (next : α → Walk β) :
    Except Breach (Except WireError β × Cursor) :=
  match first with
  | .error breach => .error breach
  | .ok (.error fault, after) => .ok (.error fault, after)
  | .ok (.ok value, after) => (next value).runOn after

/-- Read with one walk and then with another. -/
protected def bind (first : Walk α) (next : α → Walk β) : Walk β :=
  ⟨fun cursor => continueWith (first.runOn cursor) next⟩

instance : Monad Walk where
  pure := Walk.pure
  bind := Walk.bind

/-- Report that the bytes are at fault. -/
def fail (fault : WireError) : Walk α := ⟨fun cursor => .ok (.error fault, cursor)⟩

/-- End with a breach: the walk itself has done what it must not do. -/
def stop (breach : Breach) : Walk α := ⟨fun _ => .error breach⟩

/-- Whether the cursor stands at the end of its buffer or behind it. -/
def isEmpty : Walk Bool :=
  ⟨fun cursor => .ok (.ok (decide (cursor.buffer.length ≤ cursor.position)), cursor)⟩

/-- The number of bytes from the cursor to the end of the buffer. -/
def remaining : Walk Nat :=
  ⟨fun cursor =>
    if cursor.position ≤ cursor.buffer.length then
      .ok (.ok (cursor.buffer.length - cursor.position), cursor)
    else .error (.cursorOutside cursor.position cursor.buffer.length)⟩

/-- The byte at the cursor, if there is one. -/
def byte? : Walk (Option UInt8) :=
  ⟨fun cursor => .ok (.ok cursor.buffer[cursor.position]?, cursor)⟩

/-- Move over a number of bytes, which have to be there. -/
def advance (count : Nat) : Walk Unit :=
  ⟨fun cursor =>
    if cursor.position + count ≤ cursor.buffer.length then .ok (.ok (), cursor.move count)
    else .error (.cursorOutside (cursor.position + count) cursor.buffer.length)⟩

/-- A number of bytes from the cursor on. -/
def slice (count : Nat) : Walk Bytes :=
  ⟨fun cursor =>
    if cursor.position + count ≤ cursor.buffer.length then
      .ok (.ok (cursor.unread.take count), cursor)
    else
      .error (.sliceOutside cursor.position (cursor.position + count) cursor.buffer.length)⟩

/-- Shift a word by less than its width. -/
def shiftLeft (word : UInt64) (amount : Nat) : Walk UInt64 :=
  if amount < 64 then return word <<< UInt64.ofNat amount else stop (.shiftTooFar amount)

/-- Read the digits of a variable-length integer in a number of rounds, and set the bits of
each digit behind those of the digits before it. -/
def digits : (rounds index : Nat) → (value : UInt64) → Walk UInt64
  | 0, _, _ => fail .varintOverflow
  | rounds + 1, index, value => do
      match ← byte? with
      | none => fail (.truncated .varint)
      | some byte => do
          advance 1
          let digit ← shiftLeft (byte &&& 0x7F).toUInt64 (7 * index)
          if byte &&& 0x80 = 0 then return value ||| digit
          else digits rounds (index + 1) (value ||| digit)

/-- A number of variable length, from its first digit. -/
def varint : Walk UInt64 := digits Varint.maxLength 0 0

/-- The key of the next field: its number and its encoding. -/
def fieldKey : Walk (Nat × WireType) := do
  let number ← varint
  let field := (number >>> 3).toUInt32.toNat
  let bits := (number &&& 7).toUInt8.toNat
  if field = 0 then fail .zeroFieldNumber
  else
    match WireType.ofBits? bits with
    | some wireType => return (field, wireType)
    | none => fail (.invalidWireType field bits)

/-- The key of the next field, or nothing at the end of the buffer. -/
def key : Walk (Option (Nat × WireType)) := do
  if ← isEmpty then return none
  else do
    let found ← fieldKey
    return some found

/-- A number of bytes from the cursor on, behind which the cursor is moved. -/
def split (count : Nat) : Walk Bytes := do
  let bytes ← slice count
  advance count
  return bytes

/-- A number of bytes. The cursor stays where it is when there are fewer. -/
def take (count : Nat) (part : Part) : Walk Bytes := do
  if (← remaining) < count then fail (.truncated part) else split count

/-- Eight bytes as a word. -/
def fixed64 : Walk UInt64 := do
  let bytes ← take 8 .fixed64
  if bytes.length = 8 then return Decoder.word bytes else stop (.wordSize bytes.length)

/-- The body of a length-delimited field. -/
def lengthDelimited (field : Nat) : Walk Bytes := do
  let length ← varint
  let available ← remaining
  if available < length.toNat then fail (.lengthOutOfBounds field length.toNat available)
  else split length.toNat

/-- A text behind its length. -/
def string (field : Nat) : Walk String := do
  let bytes ← lengthDelimited field
  match Decoder.text? bytes with
  | some text => return text
  | none => fail (.invalidUtf8 field)

/-- A number cut to 32 bits. -/
def uint32 : Walk UInt32 := do
  let number ← varint
  return number.toUInt32

/-- Move over the value of a field, as its wire type says. -/
def skip (field : Nat) : WireType → Walk Unit
  | .varint => do let _ ← varint
  | .fixed64 => do let _ ← take 8 .fixed64
  | .fixed32 => do let _ ← take 4 .fixed32
  | .lengthDelimited => do let _ ← lengthDelimited field

/-- What a walk finds in a buffer, from its front on. -/
def run (walk : Walk α) (buffer : Bytes) : Except Breach (Except WireError α) :=
  (walk.runOn (.start buffer)).map Prod.fst

/-- Walk over a body as a buffer of its own. The cursor of the outer buffer stays where it is. -/
def within (body : Bytes) (walk : Walk α) : Walk α :=
  ⟨fun cursor => (walk.run body).map fun verdict => (verdict, cursor)⟩

/-- Numbers one after the other, up to the end of the buffer, in a number of rounds of which
the last one finds the end. -/
def numbers : (rounds : Nat) → Walk (List UInt64)
  | 0 => stop .endless
  | rounds + 1 => do
      if ← isEmpty then return []
      else do
        let number ← varint
        let others ← numbers rounds
        return number :: others

/-- The numbers of a repeated field, in either of its forms. -/
def repeated (field : Nat) : WireType → Walk (List UInt64)
  | .varint => do
      let number ← varint
      return [number]
  | .lengthDelimited => do
      let body ← lengthDelimited field
      within body (numbers (body.length + 1))
  | wireType => fail (.invalidWireType field wireType.bits)

section Fields

variable (merge : Nat → WireType → Option (M → Walk M))

/-- Merge the field whose key has been read, or step over it. -/
def mergeOrSkip (message : M) (field : Nat) (wireType : WireType) : Walk M :=
  match merge field wireType with
  | some known => known message
  | none => do
      skip field wireType
      return message

/-- Merge the next field, if there is one. -/
def mergeField (message : M) : Walk (Option M) := do
  match ← key with
  | none => return none
  | some (field, wireType) => do
      let next ← mergeOrSkip merge message field wireType
      return some next

/-- Merge every field up to the end of the buffer, in a number of rounds of which the last
one finds the end. -/
def mergeFields : (rounds : Nat) → M → Walk M
  | 0, _ => stop .endless
  | rounds + 1, message => do
      match ← mergeField merge message with
      | none => return message
      | some next => mergeFields rounds next

/-- The message that the fields of a buffer make up: one round for each byte at most, and
one that finds the end. -/
def decode (blank : M) (buffer : Bytes) : Except Breach (Except WireError M) :=
  (mergeFields merge (buffer.length + 1) blank).run buffer

/-- The message in the body of a length-delimited field. -/
def nested (blank : M) (field : Nat) : Walk M := do
  let body ← lengthDelimited field
  within body (mergeFields merge (body.length + 1) blank)

end Fields

end Walk

end MixedInteger
