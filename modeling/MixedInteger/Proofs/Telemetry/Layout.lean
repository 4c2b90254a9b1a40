import Mathlib.Data.List.Forall2
import MixedInteger.Proofs.Wire.Records
import MixedInteger.Telemetry.Envelope

/-! # Layout of telemetry messages

Which fields a payload and its envelope have, and what a later message does to an
earlier one when its fields are merged into it: a number of type binary64 takes
the place of the earlier one, another scalar or a string does so unless it is the
default, and the values of a repeated field are appended. A payload takes the place
of the earlier payload as a whole.
-/

namespace MixedInteger

open Decoder WireMessage

namespace Decoder

variable {M α : Type} {merge : Nat → WireType → Option (M → Decoder M)} {word : α → UInt64}
  {convert : UInt64 → α}

/-- The numbers of a packed list are appended to earlier ones, provided that they
are restored from the words that stand for them. -/
theorem appended_reads (field : Nat) (restores : ∀ value, convert (word value) = value)
    (earlier : List α) {later : List α}
    (bound : (Encoder.packedBody (later.map word)).length < 2 ^ 64) :
    (appended field .lengthDelimited convert earlier).Reads
      (Varint.encode (Encoder.packedLength (later.map word)) ++
        Encoder.packedBody (later.map word)) (earlier ++ later) := by
  have restored : (later.map word).map convert = later := by
    simp only [List.map_map, Function.comp_def, restores, List.map_id']
  have reads := (repeated_reads field bound).map fun found => earlier ++ found.map convert
  rwa [restored] at reads

/-- A packed field appends its numbers to those merged so far. -/
theorem merges_appended (field : Nat) (valid : 0 < field ∧ field < 2 ^ 32)
    (restores : ∀ value, convert (word value) = value) (set : List α → M)
    (earlier later : List α)
    (known : mergeOrSkip merge (set earlier) field .lengthDelimited =
      (appended field .lengthDelimited convert earlier >>= fun found => pure (set found))) :
    Merges merge (set earlier) (Encoder.packed field (later.map word))
      (set (earlier ++ later)) := by
  refine merges_packed field valid set known (appended_reads field restores earlier)
    fun empty => ?_
  rw [List.map_eq_nil_iff.mp empty, List.append_nil]

/-- A path is appended to the earlier one. -/
theorem merges_extended (set : Coordinate → M) (earlier later : Coordinate)
    (known : mergeOrSkip merge (set earlier) 1 .lengthDelimited =
      (extended 1 .lengthDelimited earlier >>= fun found => pure (set found))) :
    Merges merge (set earlier) (Encoder.packedUInt32 1 later.path)
      (set ⟨earlier.path ++ later.path⟩) := by
  refine merges_packed 1 (by decide) set known (fun bound => ?_) fun empty => ?_
  · exact (appended_reads 1 UInt32.toUInt32_toUInt64 earlier.path bound).map Coordinate.mk
  · rw [List.map_eq_nil_iff.mp empty, List.append_nil]

end Decoder

namespace TextMessage

/-- A text after a later one was merged into it. -/
def update (earlier later : TextMessage) : TextMessage where
  level := supersede 0 earlier.level later.level
  content := supersede "" earlier.content later.content

instance : FieldLayout TextMessage where
  uses := [(1, .varint), (2, .lengthDelimited)]
  fields message := [Encoder.uint32 1 message.level, Encoder.string 2 message.content]
  update := update
  flatten_fields message := by simp [encode]
  merge_eq_none_iff field wireType := by
    simp only [merge]
    split <;> simp_all
  merges_fields earlier later :=
    .cons (merges_uint32 1 (by decide) (TextMessage.mk · earlier.content) _ _ rfl) <|
    .cons (merges_string 2 (by decide) (TextMessage.mk _) _ _ rfl) .nil
  update_blank message := by simp [update, blank]

end TextMessage

namespace TensorMessage

/-- A reference after a later one was merged into it. -/
def update (earlier later : TensorMessage) : TensorMessage where
  filename := supersede "" earlier.filename later.filename
  group := supersede "" earlier.group later.group
  dataset := supersede "" earlier.dataset later.dataset
  sizes := earlier.sizes ++ later.sizes

instance : FieldLayout TensorMessage where
  uses :=
    [(1, .lengthDelimited), (2, .lengthDelimited), (3, .lengthDelimited), (4, .varint),
      (4, .lengthDelimited)]
  fields message :=
    [Encoder.string 1 message.filename, Encoder.string 2 message.group,
      Encoder.string 3 message.dataset, Encoder.packedInt32 4 message.sizes]
  update := update
  flatten_fields message := by simp [encode]
  merge_eq_none_iff field wireType := by
    simp only [merge]
    split <;> simp_all
  merges_fields := fun ⟨filename, group, dataset, sizes⟩ later =>
    .cons (merges_string 1 (by decide) (TensorMessage.mk · group dataset sizes) filename _ rfl) <|
    .cons (merges_string 2 (by decide) (TensorMessage.mk _ · dataset sizes) group _ rfl) <|
    .cons (merges_string 3 (by decide) (TensorMessage.mk _ _ · sizes) dataset _ rfl) <|
    .cons (merges_appended 4 (by decide) signedNumber_signedWord (TensorMessage.mk _ _ _) sizes
      later.sizes rfl) .nil
  update_blank message := by simp [update, blank]

end TensorMessage

namespace SolverEvent

/-- An event after a later one was merged into it. -/
def update (earlier later : SolverEvent) : SolverEvent where
  solver := supersede "" earlier.solver later.solver

instance : FieldLayout SolverEvent where
  uses := [(1, .lengthDelimited)]
  fields message := [Encoder.string 1 message.solver]
  update := update
  flatten_fields message := by simp [encode]
  merge_eq_none_iff field wireType := by
    simp only [merge]
    split <;> simp_all
  merges_fields _ _ := .cons (merges_string 1 (by decide) SolverEvent.mk _ _ rfl) .nil
  update_blank message := by simp [update, blank]

end SolverEvent

namespace UpdateVariable

/-- A value after a later one was merged into it. -/
def update (earlier later : UpdateVariable) : UpdateVariable where
  name := supersede "" earlier.name later.name
  iteration := earlier.iteration ++ later.iteration
  value := later.value

instance : FieldLayout UpdateVariable where
  uses := [(1, .lengthDelimited), (2, .varint), (2, .lengthDelimited), (3, .fixed64)]
  fields message :=
    [Encoder.string 1 message.name, Encoder.packedUInt32 2 message.iteration,
      Encoder.double 3 message.value]
  update := update
  flatten_fields message := by simp [encode]
  merge_eq_none_iff field wireType := by
    simp only [merge]
    split <;> simp_all
  merges_fields := fun ⟨name, iteration, value⟩ later =>
    .cons (merges_string 1 (by decide) (UpdateVariable.mk · iteration value) name _ rfl) <|
    .cons (merges_appended 2 (by decide) UInt32.toUInt32_toUInt64 (UpdateVariable.mk _ · value)
      iteration later.iteration rfl) <|
    .cons (merges_double 3 (by decide) (UpdateVariable.mk _ _) _ rfl) .nil
  update_blank message := by simp [update, blank]

end UpdateVariable

namespace VariableInformation

/-- The bounds of a variable after later ones were merged into them. -/
def update (earlier later : VariableInformation) : VariableInformation where
  name := supersede "" earlier.name later.name
  lower := later.lower
  upper := later.upper

instance : FieldLayout VariableInformation where
  uses := [(1, .lengthDelimited), (2, .fixed64), (3, .fixed64)]
  fields message :=
    [Encoder.string 1 message.name, Encoder.double 2 message.lower,
      Encoder.double 3 message.upper]
  update := update
  flatten_fields message := by simp [encode]
  merge_eq_none_iff field wireType := by
    simp only [merge]
    split <;> simp_all
  merges_fields := fun ⟨name, lower, upper⟩ _ =>
    .cons (merges_string 1 (by decide) (VariableInformation.mk · lower upper) name _ rfl) <|
    .cons (merges_double 2 (by decide) (VariableInformation.mk _ · upper) _ rfl) <|
    .cons (merges_double 3 (by decide) (VariableInformation.mk _ _) _ rfl) .nil
  update_blank message := by simp [update, blank]

end VariableInformation

namespace NodeDescriptor

/-- A node after a later one was merged into it. -/
def update (earlier later : NodeDescriptor) : NodeDescriptor where
  coordinate := ⟨earlier.coordinate.path ++ later.coordinate.path⟩
  lower := later.lower
  upper := later.upper
  bounds := earlier.bounds ++ later.bounds

/-- The fields of a node whose variables are given by the bodies that hold them. -/
def fieldsOver (message : NodeDescriptor) (bodies : List Bytes) : List Bytes :=
  [Encoder.packedUInt32 1 message.coordinate.path, Encoder.double 2 message.lower,
    Encoder.double 3 message.upper] ++ bodies.map (Encoder.delimited 4)

/-- The variables of a node are merged one after the other. -/
theorem merges_bounds {later : List VariableInformation} {bodies : List Bytes}
    (held : List.Forall₂ (fun information body => Merges merge blank body information)
      later bodies) (message : NodeDescriptor) :
    MergesAll merge message (bodies.map (Encoder.delimited 4))
      { message with bounds := message.bounds ++ later } := by
  -- The variables merged so far are part of the message, so it varies along the list.
  induction held generalizing message with
  | nil =>
      rw [List.append_nil]
      exact .nil
  | @cons information body later bodies merges _ ih =>
      have first : Merges merge message (Encoder.delimited 4 body)
          { message with bounds := message.bounds ++ [information] } :=
        merges_delimited 4 (by decide)
          (fun found => { message with bounds := message.bounds ++ [found] }) rfl
          (decoder_reads 4 merges)
      have others := ih { message with bounds := message.bounds ++ [information] }
      rw [List.append_assoc, List.singleton_append] at others
      exact .cons first others

/-- The fields of a node are merged one after the other into any earlier node. -/
theorem merges_fieldsOver (earlier later : NodeDescriptor) {bodies : List Bytes}
    (held : List.Forall₂ (fun information body => Merges merge blank body information)
      later.bounds bodies) :
    MergesAll merge earlier (later.fieldsOver bodies) (earlier.update later) := by
  obtain ⟨coordinate, lower, upper, bounds⟩ := earlier
  exact
    .cons (merges_extended (NodeDescriptor.mk · lower upper bounds) _ _ rfl) <|
    .cons (merges_double 2 (by decide) (NodeDescriptor.mk _ · upper bounds) _ rfl) <|
    .cons (merges_double 3 (by decide) (NodeDescriptor.mk _ _ · bounds) _ rfl) <|
    merges_bounds held _

instance : FieldLayout NodeDescriptor where
  uses :=
    [(1, .varint), (1, .lengthDelimited), (2, .fixed64), (3, .fixed64), (4, .lengthDelimited)]
  fields message := message.fieldsOver (message.bounds.map encode)
  update := update
  flatten_fields message := by
    have bodies : encodeField 4 = Encoder.delimited 4 ∘ (encode : VariableInformation → Bytes) := rfl
    rw [fieldsOver, List.map_map, ← bodies]
    simp [encode, List.flatMap_def]
  merge_eq_none_iff field wireType := by
    simp only [merge]
    split <;> simp_all
  merges_fields earlier later :=
    merges_fieldsOver earlier later <|
      List.forall₂_map_right_iff.mpr <|
        List.forall₂_same.mpr fun information _ => FieldLayout.merges_encode information
  update_blank message := by simp [update, blank, Coordinate.root]

end NodeDescriptor

namespace PruneMessage

/-- A closed node after a later one was merged into it. -/
def update (earlier later : PruneMessage) : PruneMessage where
  coordinate := ⟨earlier.coordinate.path ++ later.coordinate.path⟩

instance : FieldLayout PruneMessage where
  uses := [(1, .varint), (1, .lengthDelimited)]
  fields message := [Encoder.packedUInt32 1 message.coordinate.path]
  update := update
  flatten_fields message := by simp [encode]
  merge_eq_none_iff field wireType := by
    simp only [merge]
    split <;> simp_all
  merges_fields _ _ := .cons (merges_extended PruneMessage.mk _ _ rfl) .nil
  update_blank message := by simp [update, blank, Coordinate.root]

end PruneMessage

namespace Payload

/-- Whether merging a body makes up the message in a payload. -/
def ReadFrom : Payload → Bytes → Prop
  | text message, body => Merges merge blank body message
  | tensor message, body => Merges merge blank body message
  | solveStart message, body => Merges merge blank body message
  | solveEnd message, body => Merges merge blank body message
  | updateVariable message, body => Merges merge blank body message
  | addNode message, body => Merges merge blank body message
  | pruneNode message, body => Merges merge blank body message

/-- The body that a payload is written with makes up the payload again. -/
theorem readFrom_body (payload : Payload) : payload.ReadFrom payload.body := by
  cases payload <;> exact FieldLayout.merges_encode _

/-- The field of a payload has a decoder that reads the payload. -/
theorem ReadFrom.exists_decoder {payload : Payload} {body : Bytes}
    (readFrom : payload.ReadFrom body) :
    ∃ decoder, decoder? payload.field = some decoder ∧
      (body.length < 2 ^ 64 →
        decoder.Reads (Varint.encode body.length ++ body) payload) := by
  cases payload with
  | text _ => exact ⟨_, rfl, fun bound => (decoder_reads 10 readFrom bound).map text⟩
  | tensor _ => exact ⟨_, rfl, fun bound => (decoder_reads 11 readFrom bound).map tensor⟩
  | solveStart _ => exact ⟨_, rfl, fun bound => (decoder_reads 12 readFrom bound).map solveStart⟩
  | solveEnd _ => exact ⟨_, rfl, fun bound => (decoder_reads 13 readFrom bound).map solveEnd⟩
  | updateVariable _ =>
      exact ⟨_, rfl, fun bound => (decoder_reads 14 readFrom bound).map updateVariable⟩
  | addNode _ => exact ⟨_, rfl, fun bound => (decoder_reads 15 readFrom bound).map addNode⟩
  | pruneNode _ => exact ⟨_, rfl, fun bound => (decoder_reads 16 readFrom bound).map pruneNode⟩

/-- Payloads have the field numbers from 10 to 16. -/
theorem field_mem_range (payload : Payload) : 10 ≤ payload.field ∧ payload.field ≤ 16 := by
  cases payload <;> simp [field]

/-- A payload is merged into any envelope and takes the place of the one there. -/
theorem ReadFrom.merges {payload : Payload} {body : Bytes} (readFrom : payload.ReadFrom body)
    (envelope : Envelope) :
    Merges Envelope.merge envelope (Encoder.delimited payload.field body)
      { envelope with payload := some payload } := by
  have range := payload.field_mem_range
  have merged : Envelope.merge payload.field .lengthDelimited =
      (decoder? payload.field).map fun decoder envelope =>
        decoder >>= fun found => pure { envelope with payload := some found } := by
    cases payload <;> rfl
  obtain ⟨decoder, known, reads⟩ := readFrom.exists_decoder
  refine merges_delimited payload.field (by omega)
    (fun found => { envelope with payload := some found }) ?_ reads
  rw [mergeOrSkip, merged, known]
  rfl

end Payload

namespace Envelope

/-- The fields of an envelope, each with an encoding in which it is accepted. -/
def uses : List (Nat × WireType) :=
  [(1, .lengthDelimited), (2, .lengthDelimited), (3, .varint), (10, .lengthDelimited),
    (11, .lengthDelimited), (12, .lengthDelimited), (13, .lengthDelimited),
    (14, .lengthDelimited), (15, .lengthDelimited), (16, .lengthDelimited)]

/-- An envelope ignores every field that is not among its uses. -/
theorem merge_eq_none_iff (field : Nat) (wireType : WireType) :
    merge field wireType = none ↔ (field, wireType) ∉ uses := by
  simp only [merge, uses]
  split
  -- The numbers of payloads are told apart by the table of their decoders.
  case h_4 field _ _ _ =>
    simp only [Option.map_eq_none_iff, Payload.decoder?]
    split <;> simp_all
  all_goals simp_all

/-- An envelope after a message was merged into it. -/
def update (earlier : Envelope) (later : Message) : Envelope where
  name := supersede "" earlier.name later.name
  runId := supersede "" earlier.runId later.runId
  timestamp := supersede 0 earlier.timestamp later.timestamp
  payload := some later.payload

end Envelope

namespace Message

/-- The fields of a message whose payload is given by a body that holds it. -/
def fieldsOver (message : Message) (body : Bytes) : List Bytes :=
  [Encoder.string 1 message.name, Encoder.string 2 message.runId,
    Encoder.uint64 3 message.timestamp, Encoder.delimited message.payload.field body]

/-- The fields of a message over its own body, one behind the other, are its encoding. -/
theorem flatten_fieldsOver (message : Message) :
    (message.fieldsOver message.payload.body).flatten = message.encode := by
  simp [fieldsOver, encode]

/-- The fields of a message are merged one after the other into any envelope. -/
theorem merges_fieldsOver (earlier : Envelope) (later : Message) {body : Bytes}
    (readFrom : later.payload.ReadFrom body) :
    MergesAll Envelope.merge earlier (later.fieldsOver body) (earlier.update later) := by
  obtain ⟨name, runId, timestamp, payload⟩ := earlier
  exact
    .cons (merges_string 1 (by decide) (Envelope.mk · runId timestamp payload) name _ rfl) <|
    .cons (merges_string 2 (by decide) (Envelope.mk _ · timestamp payload) runId _ rfl) <|
    .cons (merges_uint64 3 (by decide) (Envelope.mk _ _ · payload) timestamp _ rfl) <|
    .cons (readFrom.merges _) .nil

/-- Records of no use among the fields of a message make no difference to an
envelope. -/
theorem merges_padded (earlier : Envelope) {later : Message} {body bytes : Bytes}
    (readFrom : later.payload.ReadFrom body)
    (padded : Padded Envelope.uses (later.fieldsOver body) bytes) :
    Merges Envelope.merge earlier bytes (earlier.update later) :=
  padded.merges (fun field wireType => (Envelope.merge_eq_none_iff field wireType).mpr)
    (merges_fieldsOver earlier later readFrom)

/-- The encoding of a message is merged into any envelope as an update. -/
theorem merges_encode (earlier : Envelope) (later : Message) :
    Merges Envelope.merge earlier later.encode (earlier.update later) := by
  rw [← flatten_fieldsOver]
  exact merges_padded earlier later.payload.readFrom_body (Padded.flatten _ _)

end Message

end MixedInteger
