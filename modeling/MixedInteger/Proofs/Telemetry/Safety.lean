import MixedInteger.Proofs.Telemetry.Layout
import MixedInteger.Proofs.Wire.Rounds

/-! # Telemetry messages from arbitrary bytes

The fields of every telemetry message are merged by walks that check each of their steps.
The walks give what the decoders give, so no input makes them leave their buffer, shift a
word too far or go on for ever (`decode_safe`).
-/

namespace MixedInteger

namespace Walk

variable {M α : Type}

/-- The numbers of a repeated field that is appended to a list. -/
def appended (field : Nat) (wireType : WireType) (convert : UInt64 → α) (earlier : List α) :
    Walk (List α) := do
  let words ← repeated field wireType
  return earlier ++ words.map convert

/-- The path of a coordinate with the numbers of a repeated field appended. -/
def extended (field : Nat) (wireType : WireType) (earlier : Coordinate) : Walk Coordinate := do
  let path ← appended field wireType UInt64.toUInt32 earlier.path
  return ⟨path⟩

/-- The walk over a repeated field appends what the decoder appends. -/
theorem tracks_appended (field : Nat) (wireType : WireType) (convert : UInt64 → α)
    (earlier : List α) : (appended field wireType convert earlier).Tracks
      (Decoder.appended field wireType convert earlier) :=
  (tracks_repeated field wireType).map fun words => earlier ++ words.map convert

/-- The walk over a path appends what the decoder appends. -/
theorem tracks_extended (field : Nat) (wireType : WireType) (earlier : Coordinate) :
    (extended field wireType earlier).Tracks (Decoder.extended field wireType earlier) :=
  (tracks_appended field wireType UInt64.toUInt32 earlier.path).map Coordinate.mk

/-- Walks agree with decoders on the fields in use if they merge no others. -/
theorem agrees_of_uses {uses : List (Nat × WireType)}
    {walks : Nat → WireType → Option (M → Walk M)}
    {decoders : Nat → WireType → Option (M → Decoder M)}
    (unused : ∀ field wireType, (field, wireType) ∉ uses → decoders field wireType = none)
    (unwalked : ∀ field wireType, (field, wireType) ∉ uses → walks field wireType = none)
    (used : ∀ use ∈ uses, Alike (walks use.1 use.2) (decoders use.1 use.2)) :
    Agrees walks decoders := by
  intro field wireType
  by_cases known : (field, wireType) ∈ uses
  · exact used _ known
  · rw [unused _ _ known, unwalked _ _ known]
    exact .none

end Walk

open Walk WireMessage

/-- Messages whose fields are merged by walks, too. -/
class WalkedMessage (M : Type) [WireMessage M] where
  /-- How a known field is merged into a message. -/
  walks : Nat → WireType → Option (M → Walk M)
  agrees : Agrees walks (merge : Nat → WireType → Option (M → Decoder M))

namespace WalkedMessage

variable {M : Type} [WireMessage M]

/-- Walks that merge the fields of a layout as its decoders do, and no others, agree with them. -/
theorem agrees_of_layout [FieldLayout M] {walks : Nat → WireType → Option (M → Walk M)}
    (unwalked : ∀ field wireType, (field, wireType) ∉ FieldLayout.uses M →
      walks field wireType = none)
    (used : ∀ use ∈ FieldLayout.uses M, Alike (walks use.1 use.2) (merge use.1 use.2)) :
    Agrees walks merge :=
  agrees_of_uses (fun field wireType => (FieldLayout.merge_eq_none_iff field wireType).mpr)
    unwalked used

variable [WalkedMessage M]

/-- The message in the body of a length-delimited field. -/
def walk (field : Nat) : Walk M := nested walks blank field

/-- The walk over a nested message finds what its decoder finds. -/
theorem tracks_walk (field : Nat) : (walk field : Walk M).Tracks (WireMessage.decoder field) :=
  (tracks_lengthDelimited field).bind fun body =>
    tracks_within (agrees.decode_eq_ok blank body)

end WalkedMessage

open WalkedMessage

instance : WalkedMessage TextMessage where
  walks
    | 1, .varint => some fun message => return { message with level := ← Walk.uint32 }
    | 2, .lengthDelimited =>
        some fun message => return { message with content := ← Walk.string 2 }
    | _, _ => none
  agrees := by
    refine agrees_of_layout (fun field wireType unused => ?_) ?_
    · split <;> simp_all [FieldLayout.uses]
    · simp only [FieldLayout.uses, List.forall_mem_cons]
      exact
        ⟨.some fun message => tracks_uint32.map fun level => { message with level },
          .some fun message => (tracks_string 2).map fun content => { message with content },
          nofun⟩

instance : WalkedMessage TensorMessage where
  walks
    | 1, .lengthDelimited =>
        some fun message => return { message with filename := ← Walk.string 1 }
    | 2, .lengthDelimited =>
        some fun message => return { message with group := ← Walk.string 2 }
    | 3, .lengthDelimited =>
        some fun message => return { message with dataset := ← Walk.string 3 }
    | 4, .varint =>
        some fun message =>
          return { message with
            sizes := ← Walk.appended 4 .varint Decoder.signedNumber message.sizes }
    | 4, .lengthDelimited =>
        some fun message =>
          return { message with
            sizes := ← Walk.appended 4 .lengthDelimited Decoder.signedNumber message.sizes }
    | _, _ => none
  agrees := by
    have sizes (wireType : WireType) (message : TensorMessage) :=
      (tracks_appended 4 wireType Decoder.signedNumber message.sizes).map
        fun sizes => { message with sizes }
    refine agrees_of_layout (fun field wireType unused => ?_) ?_
    · split <;> simp_all [FieldLayout.uses]
    · simp only [FieldLayout.uses, List.forall_mem_cons]
      exact
        ⟨.some fun message => (tracks_string 1).map fun filename => { message with filename },
          .some fun message => (tracks_string 2).map fun group => { message with group },
          .some fun message => (tracks_string 3).map fun dataset => { message with dataset },
          .some (sizes .varint), .some (sizes .lengthDelimited), nofun⟩

instance : WalkedMessage SolverEvent where
  walks
    | 1, .lengthDelimited =>
        some fun message => return { message with solver := ← Walk.string 1 }
    | _, _ => none
  agrees := by
    refine agrees_of_layout (fun field wireType unused => ?_) ?_
    · split <;> simp_all [FieldLayout.uses]
    · simp only [FieldLayout.uses, List.forall_mem_cons]
      exact ⟨.some fun _ => (tracks_string 1).map SolverEvent.mk, nofun⟩

instance : WalkedMessage UpdateVariable where
  walks
    | 1, .lengthDelimited =>
        some fun message => return { message with name := ← Walk.string 1 }
    | 2, .varint =>
        some fun message =>
          return { message with
            iteration := ← Walk.appended 2 .varint UInt64.toUInt32 message.iteration }
    | 2, .lengthDelimited =>
        some fun message =>
          return { message with
            iteration := ← Walk.appended 2 .lengthDelimited UInt64.toUInt32 message.iteration }
    | 3, .fixed64 => some fun message => return { message with value := ← Walk.fixed64 }
    | _, _ => none
  agrees := by
    have iteration (wireType : WireType) (message : UpdateVariable) :=
      (tracks_appended 2 wireType UInt64.toUInt32 message.iteration).map
        fun iteration => { message with iteration }
    refine agrees_of_layout (fun field wireType unused => ?_) ?_
    · split <;> simp_all [FieldLayout.uses]
    · simp only [FieldLayout.uses, List.forall_mem_cons]
      exact
        ⟨.some fun message => (tracks_string 1).map fun name => { message with name },
          .some (iteration .varint), .some (iteration .lengthDelimited),
          .some fun message => tracks_fixed64.map fun value => { message with value }, nofun⟩

instance : WalkedMessage VariableInformation where
  walks
    | 1, .lengthDelimited =>
        some fun message => return { message with name := ← Walk.string 1 }
    | 2, .fixed64 => some fun message => return { message with lower := ← Walk.fixed64 }
    | 3, .fixed64 => some fun message => return { message with upper := ← Walk.fixed64 }
    | _, _ => none
  agrees := by
    refine agrees_of_layout (fun field wireType unused => ?_) ?_
    · split <;> simp_all [FieldLayout.uses]
    · simp only [FieldLayout.uses, List.forall_mem_cons]
      exact
        ⟨.some fun message => (tracks_string 1).map fun name => { message with name },
          .some fun message => tracks_fixed64.map fun lower => { message with lower },
          .some fun message => tracks_fixed64.map fun upper => { message with upper }, nofun⟩

instance : WalkedMessage NodeDescriptor where
  walks
    | 1, .varint =>
        some fun message =>
          return { message with coordinate := ← Walk.extended 1 .varint message.coordinate }
    | 1, .lengthDelimited =>
        some fun message =>
          return { message with
            coordinate := ← Walk.extended 1 .lengthDelimited message.coordinate }
    | 2, .fixed64 => some fun message => return { message with lower := ← Walk.fixed64 }
    | 3, .fixed64 => some fun message => return { message with upper := ← Walk.fixed64 }
    | 4, .lengthDelimited =>
        some fun message => return { message with bounds := message.bounds ++ [← walk 4] }
    | _, _ => none
  agrees := by
    have coordinate (wireType : WireType) (message : NodeDescriptor) :=
      (tracks_extended 1 wireType message.coordinate).map
        fun coordinate => { message with coordinate }
    refine agrees_of_layout (fun field wireType unused => ?_) ?_
    · split <;> simp_all [FieldLayout.uses]
    · simp only [FieldLayout.uses, List.forall_mem_cons]
      exact
        ⟨.some (coordinate .varint), .some (coordinate .lengthDelimited),
          .some fun message => tracks_fixed64.map fun lower => { message with lower },
          .some fun message => tracks_fixed64.map fun upper => { message with upper },
          .some fun message => (tracks_walk 4).map fun information =>
            { message with bounds := message.bounds ++ [information] }, nofun⟩

instance : WalkedMessage PruneMessage where
  walks
    | 1, .varint =>
        some fun message =>
          return { message with coordinate := ← Walk.extended 1 .varint message.coordinate }
    | 1, .lengthDelimited =>
        some fun message =>
          return { message with
            coordinate := ← Walk.extended 1 .lengthDelimited message.coordinate }
    | _, _ => none
  agrees := by
    have coordinate (wireType : WireType) (message : PruneMessage) :=
      (tracks_extended 1 wireType message.coordinate).map PruneMessage.mk
    refine agrees_of_layout (fun field wireType unused => ?_) ?_
    · split <;> simp_all [FieldLayout.uses]
    · simp only [FieldLayout.uses, List.forall_mem_cons]
      exact ⟨.some (coordinate .varint), .some (coordinate .lengthDelimited), nofun⟩

namespace Payload

/-- The walk over the payload that a field of an envelope carries. -/
def walk? (field : Nat) : Option (Walk Payload) :=
  match field with
  | 10 => some (text <$> walk field)
  | 11 => some (tensor <$> walk field)
  | 12 => some (solveStart <$> walk field)
  | 13 => some (solveEnd <$> walk field)
  | 14 => some (updateVariable <$> walk field)
  | 15 => some (addNode <$> walk field)
  | 16 => some (pruneNode <$> walk field)
  | _ => none

end Payload

namespace Envelope

/-- How a walk merges a known field into an envelope. -/
def walks (field : Nat) (wireType : WireType) : Option (Envelope → Walk Envelope) :=
  match field, wireType with
  | 1, .lengthDelimited =>
      some fun envelope => return { envelope with name := ← Walk.string 1 }
  | 2, .lengthDelimited =>
      some fun envelope => return { envelope with runId := ← Walk.string 2 }
  | 3, .varint => some fun envelope => return { envelope with timestamp := ← Walk.varint }
  | field, .lengthDelimited =>
      (Payload.walk? field).map fun walk envelope =>
        return { envelope with payload := some (← walk) }
  | _, _ => none

/-- An envelope walks no field that is not among its uses. -/
theorem walks_eq_none (field : Nat) (wireType : WireType) (unused : (field, wireType) ∉ uses) :
    walks field wireType = none := by
  simp only [walks]
  split
  case h_4 field _ _ _ =>
    simp only [Option.map_eq_none_iff, Payload.walk?]
    split <;> simp_all [uses]
  all_goals simp_all [uses]

/-- The walk over a payload puts into the envelope what the decoder puts there. -/
theorem tracks_payload {P : Type} [WireMessage P] [WalkedMessage P] (field : Nat)
    (payload : P → Payload) (envelope : Envelope) :
    (payload <$> walk field >>= fun found =>
      pure { envelope with payload := some found } : Walk Envelope).Tracks
      (payload <$> WireMessage.decoder field >>= fun found =>
        pure { envelope with payload := some found }) := by
  have mapped : (payload <$> walk field : Walk Payload).Tracks
      (payload <$> WireMessage.decoder field) := (tracks_walk field).map payload
  exact mapped.map fun found => { envelope with payload := some found }

/-- The walks of an envelope agree with its decoders. -/
theorem agrees : Agrees walks merge := by
  refine agrees_of_uses (fun field wireType => (merge_eq_none_iff field wireType).mpr)
    walks_eq_none ?_
  simp only [uses, List.forall_mem_cons]
  exact
    ⟨.some fun envelope => (tracks_string 1).map fun name => { envelope with name },
      .some fun envelope => (tracks_string 2).map fun runId => { envelope with runId },
      .some fun envelope => tracks_varint.map fun timestamp => { envelope with timestamp },
      .some (tracks_payload 10 .text), .some (tracks_payload 11 .tensor),
      .some (tracks_payload 12 .solveStart), .some (tracks_payload 13 .solveEnd),
      .some (tracks_payload 14 .updateVariable), .some (tracks_payload 15 .addNode),
      .some (tracks_payload 16 .pruneNode), nofun⟩

end Envelope

/-- The message of a sequence of bytes, as it is found by a walk over them. -/
def Message.walk (input : Bytes) : Except Breach (Except WireError Message) :=
  (Walk.decode Envelope.walks {} input).map fun verdict => verdict >>= Envelope.close

/-- Whether messages of a type are read safely from any bytes. A walk over the bytes ends
without a breach and gives what they decode to. It keeps inside its buffer from field to
field and takes at least one byte off for each. In the body of a field it reads nothing
else. -/
structure DecodesSafely (M : Type) [WireMessage M] [WalkedMessage M] : Prop where
  decodes : ∀ input, Walk.decode walks (blank : M) input = .ok (decode input)
  advances : ∀ message : M, (mergeField walks message).Advances
  confined : ∀ field, (walk field : Walk M).Confined field decode

/-- Messages whose walks agree with their decoders are read safely. -/
theorem decodesSafely (M : Type) [WireMessage M] [WalkedMessage M] : DecodesSafely M where
  decodes := agrees.decode_eq_ok blank
  advances := agrees.mergeField_advances
  confined field := confined_within field (agrees.decode_eq_ok blank)

/-- **Decoding is safe on arbitrary bytes.** A walk over any bytes as a message, or as the
body of one, ends in a message or in an error of the data, the one that they decode to. None
of its steps is a breach: the cursor stays inside the buffer, no slice reaches beyond it, no
word is shifted by 64 bits or more, and no loop goes on for more rounds than there are bytes.
Each field takes at least one byte off, and of a nested message or a packed list only the
body is read, right behind which the cursor of the outer buffer ends. -/
theorem decode_safe :
    (∀ input, Message.walk input = .ok (Message.decode input)) ∧
    (∀ envelope, (mergeField Envelope.walks envelope).Advances) ∧
    DecodesSafely TextMessage ∧ DecodesSafely TensorMessage ∧ DecodesSafely SolverEvent ∧
    DecodesSafely UpdateVariable ∧ DecodesSafely VariableInformation ∧
    DecodesSafely NodeDescriptor ∧ DecodesSafely PruneMessage ∧
    ∀ field, (repeated field .lengthDelimited).Confined field Decoder.listed := by
  refine ⟨fun input => ?_, Envelope.agrees.mergeField_advances, decodesSafely _, decodesSafely _,
    decodesSafely _, decodesSafely _, decodesSafely _, decodesSafely _, decodesSafely _,
    fun field => confined_within field run_numbers⟩
  rw [Message.walk, Envelope.agrees.decode_eq_ok]
  rfl

/-- The largest length of all is refused before a slice is taken. -/
example : Message.walk (0x0A :: List.replicate 9 0xFF ++ [0x01]) =
    .ok (.error (.lengthOutOfBounds 1 18446744073709551615 0)) := rfl

end MixedInteger
