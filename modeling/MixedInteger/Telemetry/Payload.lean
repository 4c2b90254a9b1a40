import MixedInteger.SearchTree.Coordinate
import MixedInteger.Wire.Message

/-! # Telemetry payloads

What a solver reports: texts, references to stored arrays, the start and the end
of a solve, values of tracked quantities, and the nodes of its search tree.
Numbers of type binary64 are kept as words, so every bit pattern is preserved.
-/

namespace MixedInteger

/-- A line of text. -/
structure TextMessage where
  level : UInt32 := 0
  content : String := ""
  deriving DecidableEq, Repr

/-- A reference to an array in an external file. -/
structure TensorMessage where
  filename : String := ""
  /-- The group inside the file. -/
  group : String := ""
  /-- The name of the array inside the group. -/
  dataset : String := ""
  /-- The extent of each dimension. -/
  sizes : List Int32 := []
  deriving DecidableEq, Repr

/-- The start or the end of a solve. -/
structure SolverEvent where
  solver : String := ""
  deriving DecidableEq, Repr

/-- The current value of a tracked quantity. -/
structure UpdateVariable where
  name : String := ""
  /-- The iteration counters at which the value holds. -/
  iteration : List UInt32 := []
  value : UInt64 := 0
  deriving DecidableEq, Repr

/-- The bounds of one variable at a node of the search tree. -/
structure VariableInformation where
  name : String := ""
  lower : UInt64 := 0
  upper : UInt64 := 0
  deriving DecidableEq, Repr

/-- A new node of the search tree. -/
structure NodeDescriptor where
  coordinate : Coordinate := .root
  lower : UInt64 := 0
  upper : UInt64 := 0
  /-- The bounds of variables that are in force at the node. -/
  bounds : List VariableInformation := []
  deriving DecidableEq, Repr

/-- A node of the search tree that is closed. -/
structure PruneMessage where
  coordinate : Coordinate := .root
  deriving DecidableEq, Repr

/-- The content of a telemetry message. -/
inductive Payload where
  | text (body : TextMessage)
  | tensor (body : TensorMessage)
  | solveStart (body : SolverEvent)
  | solveEnd (body : SolverEvent)
  | updateVariable (body : UpdateVariable)
  | addNode (body : NodeDescriptor)
  | pruneNode (body : PruneMessage)
  deriving DecidableEq, Repr

/-- The numbers of a repeated field that is appended to a list. -/
def Decoder.appended {α : Type} (field : Nat) (wireType : WireType) (convert : UInt64 → α)
    (earlier : List α) : Decoder (List α) := do
  let words ← Decoder.repeated field wireType
  return earlier ++ words.map convert

/-- The path of a coordinate with the numbers of a repeated field appended. -/
def Decoder.extended (field : Nat) (wireType : WireType) (earlier : Coordinate) :
    Decoder Coordinate := do
  let path ← Decoder.appended field wireType UInt64.toUInt32 earlier.path
  return ⟨path⟩

instance : WireMessage TextMessage where
  blank := {}
  encode message := Encoder.uint32 1 message.level ++ Encoder.string 2 message.content
  merge
    | 1, .varint => some fun message => return { message with level := ← Decoder.uint32 }
    | 2, .lengthDelimited =>
        some fun message => return { message with content := ← Decoder.string 2 }
    | _, _ => none

instance : WireMessage TensorMessage where
  blank := {}
  encode message :=
    Encoder.string 1 message.filename ++ Encoder.string 2 message.group
      ++ Encoder.string 3 message.dataset ++ Encoder.packedInt32 4 message.sizes
  merge
    | 1, .lengthDelimited =>
        some fun message => return { message with filename := ← Decoder.string 1 }
    | 2, .lengthDelimited =>
        some fun message => return { message with group := ← Decoder.string 2 }
    | 3, .lengthDelimited =>
        some fun message => return { message with dataset := ← Decoder.string 3 }
    | 4, .varint =>
        some fun message =>
          return { message with
            sizes := ← Decoder.appended 4 .varint Decoder.signedNumber message.sizes }
    | 4, .lengthDelimited =>
        some fun message =>
          return { message with
            sizes := ← Decoder.appended 4 .lengthDelimited Decoder.signedNumber message.sizes }
    | _, _ => none

instance : WireMessage SolverEvent where
  blank := {}
  encode message := Encoder.string 1 message.solver
  merge
    | 1, .lengthDelimited =>
        some fun message => return { message with solver := ← Decoder.string 1 }
    | _, _ => none

instance : WireMessage UpdateVariable where
  blank := {}
  encode message :=
    Encoder.string 1 message.name ++ Encoder.packedUInt32 2 message.iteration
      ++ Encoder.double 3 message.value
  merge
    | 1, .lengthDelimited =>
        some fun message => return { message with name := ← Decoder.string 1 }
    | 2, .varint =>
        some fun message =>
          return { message with
            iteration := ← Decoder.appended 2 .varint UInt64.toUInt32 message.iteration }
    | 2, .lengthDelimited =>
        some fun message =>
          return { message with
            iteration :=
              ← Decoder.appended 2 .lengthDelimited UInt64.toUInt32 message.iteration }
    | 3, .fixed64 => some fun message => return { message with value := ← Decoder.fixed64 }
    | _, _ => none

instance : WireMessage VariableInformation where
  blank := {}
  encode message :=
    Encoder.string 1 message.name ++ Encoder.double 2 message.lower
      ++ Encoder.double 3 message.upper
  merge
    | 1, .lengthDelimited =>
        some fun message => return { message with name := ← Decoder.string 1 }
    | 2, .fixed64 => some fun message => return { message with lower := ← Decoder.fixed64 }
    | 3, .fixed64 => some fun message => return { message with upper := ← Decoder.fixed64 }
    | _, _ => none

instance : WireMessage NodeDescriptor where
  blank := {}
  encode message :=
    Encoder.packedUInt32 1 message.coordinate.path ++ Encoder.double 2 message.lower
      ++ Encoder.double 3 message.upper
      ++ message.bounds.flatMap (WireMessage.encodeField 4)
  merge
    | 1, .varint =>
        some fun message =>
          return { message with
            coordinate := ← Decoder.extended 1 .varint message.coordinate }
    | 1, .lengthDelimited =>
        some fun message =>
          return { message with
            coordinate := ← Decoder.extended 1 .lengthDelimited message.coordinate }
    | 2, .fixed64 => some fun message => return { message with lower := ← Decoder.fixed64 }
    | 3, .fixed64 => some fun message => return { message with upper := ← Decoder.fixed64 }
    | 4, .lengthDelimited =>
        some fun message =>
          return { message with
            bounds := message.bounds ++ [← WireMessage.decoder 4] }
    | _, _ => none

instance : WireMessage PruneMessage where
  blank := {}
  encode message := Encoder.packedUInt32 1 message.coordinate.path
  merge
    | 1, .varint =>
        some fun message =>
          return { message with
            coordinate := ← Decoder.extended 1 .varint message.coordinate }
    | 1, .lengthDelimited =>
        some fun message =>
          return { message with
            coordinate := ← Decoder.extended 1 .lengthDelimited message.coordinate }
    | _, _ => none

namespace Payload

/-- The number of the field that carries a payload in its envelope. -/
def field : Payload → Nat
  | text _ => 10
  | tensor _ => 11
  | solveStart _ => 12
  | solveEnd _ => 13
  | updateVariable _ => 14
  | addNode _ => 15
  | pruneNode _ => 16

/-- The name of the kind of a payload. -/
def kind : Payload → String
  | text _ => "text"
  | tensor _ => "tensor"
  | solveStart _ => "solve_start"
  | solveEnd _ => "solve_end"
  | updateVariable _ => "update_variable"
  | addNode _ => "add_bab_node"
  | pruneNode _ => "prune_bab_node"

/-- The bytes of the message in a payload. -/
def body : Payload → Bytes
  | text body => WireMessage.encode body
  | tensor body => WireMessage.encode body
  | solveStart body => WireMessage.encode body
  | solveEnd body => WireMessage.encode body
  | updateVariable body => WireMessage.encode body
  | addNode body => WireMessage.encode body
  | pruneNode body => WireMessage.encode body

/-- The decoder of the payload that a field of an envelope carries. -/
def decoder? (field : Nat) : Option (Decoder Payload) :=
  match field with
  | 10 => some (text <$> WireMessage.decoder field)
  | 11 => some (tensor <$> WireMessage.decoder field)
  | 12 => some (solveStart <$> WireMessage.decoder field)
  | 13 => some (solveEnd <$> WireMessage.decoder field)
  | 14 => some (updateVariable <$> WireMessage.decoder field)
  | 15 => some (addNode <$> WireMessage.decoder field)
  | 16 => some (pruneNode <$> WireMessage.decoder field)
  | _ => none

end Payload

end MixedInteger
