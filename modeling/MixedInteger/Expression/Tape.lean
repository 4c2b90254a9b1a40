import MixedInteger.Expression.Evaluation

/-! # Tapes

A tape is a subtree laid out as instructions that run in order, each writing one
scratch slot. Leaves are operands and take no slot. A slot is handed out again
once every use of its value has been emitted, and the destination of an
instruction is chosen before its operands are released, so an instruction never
overwrites a value it reads. Uses and slots are counted in 32-bit words, which wrap
around.
-/

namespace MixedInteger

/-- Where an instruction finds a value. -/
inductive Operand where
  | leaf (id : VariableId)
  | constant (index : Nat)
  | slot (index : UInt32)
  deriving DecidableEq, Repr

/-- One operation on a tape. -/
structure Instruction (K : Type) where
  operator : Operator K
  /-- The operands, in the order the operator consumes them. -/
  args : List Operand
  destination : UInt32
  /-- The node the operation comes from. -/
  origin : NodeIdx
  deriving DecidableEq, Repr

/-- A subtree laid out as instructions. -/
structure Tape (K : Type) where
  instructions : Array (Instruction K)
  /-- The constants, each with the node it comes from. -/
  constants : Array (K × NodeIdx)
  slotCount : Nat
  /-- Where the value of the root is found at the end. -/
  root : Operand
  rootOrigin : NodeIdx
  /-- A number above every variable of the subtree. -/
  variableCount : Nat
  deriving DecidableEq, Repr

/-- A layout in progress. -/
structure Layout (K : Type) where
  instructions : Array (Instruction K) := #[]
  /-- The constants met so far, each with the node it comes from. -/
  constants : Array (K × NodeIdx) := #[]
  /-- Where the values of the nodes visited so far are found. -/
  operands : Array (Option Operand)
  /-- How many uses of each node's value are still to be emitted. -/
  pendingUses : Array UInt32
  /-- The slots that may be handed out again, latest released first. -/
  freeSlots : List UInt32 := []
  /-- The slot that is handed out when none is free. -/
  unusedSlot : UInt32 := 0
  /-- The number after the largest slot handed out so far. -/
  slotCount : UInt32 := 0
  /-- A number above every variable met so far. -/
  variableCount : Nat

namespace Layout

variable {K : Type}

/-- The slot that is handed out next, the latest released one if there is one. -/
def nextSlot (layout : Layout K) : UInt32 := layout.freeSlots.headD layout.unusedSlot

/-- Hand out a slot, a new one only if none is free. -/
def takeSlot (layout : Layout K) : Layout K :=
  let reached := { layout with slotCount := max layout.slotCount (layout.nextSlot + 1) }
  match layout.freeSlots with
  | [] => { reached with unusedSlot := layout.unusedSlot + 1 }
  | _ :: rest => { reached with freeSlots := rest }

/-- Count one use of a child. The use that leaves none pending frees the slot of the
value, if the value is in a slot. -/
def release (layout : Layout K) (child : NodeIdx) : Layout K :=
  let uses := layout.pendingUses.getD child 0 - 1
  let released := { layout with pendingUses := layout.pendingUses.setIfInBounds child uses }
  if uses = 0 then
    match layout.operands[child]?.join with
    | some (.slot slot) => { released with freeSlots := slot :: layout.freeSlots }
    | _ => released
  else released

/-- Record where the value of a node is found. -/
def place (layout : Layout K) (idx : NodeIdx) (operand : Operand) : Layout K :=
  { layout with operands := layout.operands.setIfInBounds idx (some operand) }

/-- Lay out one node whose children have been laid out. -/
def visit (graph : Graph K) (layout : Layout K) (idx : NodeIdx) :
    Except Violation (Layout K) := do
  let node ← graph.node idx
  match node.kind with
  | .leaf id =>
      return { layout with variableCount := max layout.variableCount (id + 1) }.place idx (.leaf id)
  | .constant value =>
      return { layout with constants := layout.constants.push (value, idx) }.place idx
        (.constant layout.constants.size)
  | .operator op children =>
      let args ← children.mapM (visited layout.operands)
      let destination := layout.nextSlot
      let emitted :=
        { layout.takeSlot with
          instructions := layout.instructions.push ⟨op, args, destination, idx⟩ }
      return (children.foldl release emitted).place idx (.slot destination)

end Layout

namespace Graph

variable {K : Type}

/-- How often each index up to the root is a child within a set of nodes. -/
def countUses (graph : Graph K) (root : NodeIdx) (order : List NodeIdx) :
    Except Violation (Array UInt32) :=
  order.foldlM (fun uses idx => do
    let node ← graph.node idx
    return node.children.foldl (fun uses child =>
      uses.setIfInBounds child (uses.getD child 0 + 1)) uses) (Array.replicate (root + 1) 0)

/-- Lay the subtree of a root out as a tape. The number of variables is at least
the one asked for. -/
def compile (graph : Graph K) (root : NodeIdx) (variableCount : Nat) :
    Except Violation (Tape K) := do
  let order ← graph.subtree root
  let pendingUses ← graph.countUses root order
  let layout ← order.foldlM (Layout.visit graph)
    { operands := Array.replicate (root + 1) none, pendingUses, variableCount }
  match layout.operands[root]?.join with
  | some operand =>
      return {
        instructions := layout.instructions
        constants := layout.constants
        slotCount := layout.slotCount.toNat
        root := operand
        rootOrigin := root
        variableCount := layout.variableCount }
  | none => throw .rootNotVisited

end Graph

/-- Points stored by variable: one column for each variable, and one entry in it
for each point. -/
structure PointBatch (K : Type) where
  columns : List (List K)
  count : Nat

/-- The value of a variable at one point of a batch. -/
def PointBatch.entry? {K : Type} (batch : PointBatch K) (point : Nat) (id : VariableId) :
    Option K :=
  batch.columns[id]?.bind fun column => column[point]?

/-- Buffers that one run leaves to the next. Every run starts by emptying them. -/
structure Scratch (A : Type) where
  slots : Array A := #[]
  /-- The arguments of the instruction that runs. -/
  args : Array A := #[]

namespace Tape

variable {K A : Type} [Numeric K A]

/-- The value of an operand. Leaves and constants are checked when they are
read, slots when they are written. -/
def read (tape : Tape K) (lookup : VariableId → Option A) (options : EvalOptions)
    (slots : Array A) (origin : NodeIdx) : Operand → Except (Fault (EvalError K)) A
  | .leaf id =>
      match lookup id with
      | some value => Fault.report (options.check origin "variable" value)
      | none => .error (.error (.unboundVariable id origin))
  | .constant index =>
      match tape.constants[index]? with
      | some (value, node) =>
          Fault.report (options.check node "constant" (Numeric.constant value))
      | none => .error (.violation (.indexOutOfBounds tape.constants.size index))
  | .slot index =>
      match slots[index.toNat]? with
      | some value => .ok value
      | none => .error (.violation (.indexOutOfBounds slots.size index.toNat))

/-- Run one instruction on the slots. -/
def step (tape : Tape K) (lookup : VariableId → Option A) (options : EvalOptions)
    (slots : Array A) (instruction : Instruction K) :
    Except (Fault (EvalError K)) (Array A) := do
  let args ← instruction.args.mapM (tape.read lookup options slots instruction.origin)
  let result ← Fault.contract (instruction.operator.apply args)
  let value ← Fault.report (options.check instruction.origin instruction.operator.name result)
  let destination := instruction.destination.toNat
  if destination < slots.size then return slots.setIfInBounds destination value
  else throw (.violation (.indexOutOfBounds slots.size destination))

/-- Run the whole tape and read the root. -/
def run (tape : Tape K) (lookup : VariableId → Option A) (options : EvalOptions) :
    Except (Fault (EvalError K)) A := do
  let slots ← tape.instructions.toList.foldlM (tape.step lookup options)
    (Array.replicate tape.slotCount 0)
  tape.read lookup options slots tape.rootOrigin tape.root

/-- The value of the root under an assignment. -/
def eval (tape : Tape K) (assignment : Assignment A) (options : EvalOptions) :
    Except (Fault (EvalError K)) A :=
  tape.run assignment.get? options

/-- The values of the root under several assignments, one answer for each. -/
def evalPoints (tape : Tape K) (points : List (Assignment A)) (options : EvalOptions) :
    List (Except (Fault (EvalError K)) A) :=
  points.map fun point => tape.eval point options

/-- Refill the argument buffer with the arguments of an instruction. -/
def load (tape : Tape K) (lookup : VariableId → Option A) (options : EvalOptions)
    (scratch : Scratch A) (instruction : Instruction K) :
    Except (Fault (EvalError K)) (Scratch A) := do
  let args ← instruction.args.foldlM (fun args operand => do
    let value ← tape.read lookup options scratch.slots instruction.origin operand
    return args.push value) (scratch.args.shrink 0)
  return { scratch with args }

/-- One step that works in the buffers. -/
def stepIn (tape : Tape K) (lookup : VariableId → Option A) (options : EvalOptions)
    (scratch : Scratch A) (instruction : Instruction K) :
    Except (Fault (EvalError K)) (Scratch A) := do
  let loaded ← tape.load lookup options scratch instruction
  let result ← Fault.contract (instruction.operator.apply loaded.args.toList)
  let value ← Fault.report (options.check instruction.origin instruction.operator.name result)
  let destination := instruction.destination.toNat
  if destination < loaded.slots.size then
    return { loaded with slots := loaded.slots.setIfInBounds destination value }
  else throw (.violation (.indexOutOfBounds loaded.slots.size destination))

/-- Run the whole tape in buffers that another run may have used, and read the root. -/
def runIn (tape : Tape K) (lookup : VariableId → Option A) (options : EvalOptions) :
    StateT (Scratch A) (Except (Fault (EvalError K))) A := fun scratch => do
  let final ← tape.instructions.toList.foldlM (tape.stepIn lookup options)
    { scratch with slots := scratch.slots.shrink 0 ++ Array.replicate tape.slotCount 0 }
  let value ← tape.read lookup options final.slots tape.rootOrigin tape.root
  return (value, final)

/-- The plain values of the root at every point of a batch, or the error of the
first point that has one. All points are evaluated in the same buffers. -/
def evalRows [Scalar K] (tape : Tape K) (batch : PointBatch K) (options : EvalOptions) :
    Except (Fault (EvalError K)) (List K) :=
  StateT.run' ((List.range batch.count).mapM fun point =>
    tape.runIn (batch.entry? point) options) {}

end Tape

end MixedInteger
