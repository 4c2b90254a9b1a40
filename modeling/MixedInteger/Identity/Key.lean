/-! # Keys and identities

Problems and graphs are addressed by generational keys: a slot index together
with the generation the slot had when the key was issued. Nodes carry a unique
identity that is independent of their position.
-/

namespace MixedInteger

inductive Kind where
  | problem
  | graph
  deriving DecidableEq, Repr

def Kind.name : Kind → String
  | .problem => "problem"
  | .graph => "graph"

/-- A slot address: the index and the generation the slot had when the key was
issued. -/
structure Key (kind : Kind) where
  index : Nat
  /-- How often the slot had been freed, modulo `2 ^ 32`. -/
  generation : UInt32
  deriving DecidableEq, Repr

namespace Key

variable {kind : Kind}

/-- The slot and the generation of a key. -/
def slotText (key : Key kind) : String := s!"{key.index}v{key.generation.toNat}"

def text (key : Key kind) : String := s!"{kind.name}#{key.slotText}"

end Key

abbrev ProblemId := Key .problem

abbrev GraphId := Key .graph

/-- The identity of a node. -/
structure Uid where
  number : UInt64
  deriving DecidableEq, Repr

def Uid.text (uid : Uid) : String := s!"uid:{uid.number.toNat}"

/-- The position of a node in its graph. -/
abbrev NodeIdx := Nat

def NodeIdx.text (idx : NodeIdx) : String := s!"#{idx}"

end MixedInteger
