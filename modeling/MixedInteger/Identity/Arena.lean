import MixedInteger.Contract

/-! # Generational arenas

An arena stores values in numbered slots and addresses them by generational
keys. Freed slots are threaded into a list, last freed first, and are reused
before the arena grows. Freeing a slot advances its generation, so a key of an
earlier occupant does not resolve.
-/

namespace MixedInteger

/-- One slot of an arena. -/
inductive Slot (α : Type) where
  | occupied (generation : UInt32) (value : α)
  /-- The slot is free and leads to the next free slot, if there is one. -/
  | vacant (generation : UInt32) (nextFree : Option Nat)

/-- Values addressed by generational keys of one kind. -/
structure Arena (kind : Kind) (α : Type) where
  slots : Array (Slot α) := #[]
  /-- The free slot that is reused first. -/
  freeHead : Option Nat := none
  size : Nat := 0

namespace Arena

variable {kind : Kind} {α : Type}

/-- The key that the next insertion issues. -/
def nextKey (arena : Arena kind α) : Except Violation (Key kind) :=
  match arena.freeHead with
  | some index =>
      match arena.slots[index]? with
      | some (.vacant generation _) => .ok ⟨index, generation⟩
      | _ => .error .brokenFreeList
  | none =>
      if arena.slots.size ≤ largestWord then .ok ⟨arena.slots.size, 0⟩ else .error .arenaFull

/-- The head of the free list once the given key has been taken from it. -/
def freeHeadAfter (arena : Arena kind α) (key : Key kind) : Option Nat :=
  match arena.slots[key.index]? with
  | some (.vacant _ nextFree) => nextFree
  | _ => none

/-- Take the slot of an announced key from the free list, or add it at the end. The slot
is still vacant. -/
def claim (arena : Arena kind α) (key : Key kind) : Arena kind α where
  slots :=
    if key.index < arena.slots.size then arena.slots
    else arena.slots.push (.vacant key.generation none)
  freeHead := arena.freeHeadAfter key
  size := arena.size

/-- Store a value in the slot that has been claimed for it. -/
def fill (arena : Arena kind α) (key : Key kind) (value : α) : Arena kind α where
  slots := arena.slots.setIfInBounds key.index (.occupied key.generation value)
  freeHead := arena.freeHead
  size := arena.size + 1

/-- Store a value at the key that was announced for it. -/
def occupy (arena : Arena kind α) (key : Key kind) (value : α) : Arena kind α :=
  (arena.claim key).fill key value

/-- Store the value that is made from its own key. The maker always gives a value: one that
fails runs when the slot is claimed already, which leaves the slot vacant and off the free
list for good (`Model.createProblem`). -/
def insertWith (arena : Arena kind α) (make : Key kind → α) :
    Except Violation (Key kind × Arena kind α) := do
  let key ← arena.nextKey
  return (key, arena.occupy key (make key))

/-- Store a value under a new key. -/
def insert (arena : Arena kind α) (value : α) : Except Violation (Key kind × Arena kind α) :=
  arena.insertWith fun _ => value

/-- The value under a key, unless its slot has been freed since. -/
def get? (arena : Arena kind α) (key : Key kind) : Option α :=
  match arena.slots[key.index]? with
  | some (.occupied generation value) => if generation = key.generation then some value else none
  | _ => none

/-- Whether a key resolves to a value. -/
def contains (arena : Arena kind α) (key : Key kind) : Bool := (arena.get? key).isSome

/-- Replace the value a key resolves to. A key that does not resolve changes
nothing. -/
def set (arena : Arena kind α) (key : Key kind) (value : α) : Arena kind α :=
  if arena.contains key then
    { arena with slots := arena.slots.setIfInBounds key.index (.occupied key.generation value) }
  else arena

/-- Free the slot of a key under the next generation, in front of the free list. -/
def erase (arena : Arena kind α) (key : Key kind) : Arena kind α :=
  if arena.contains key then
    { slots := arena.slots.setIfInBounds key.index (.vacant (key.generation + 1) arena.freeHead)
      freeHead := some key.index
      size := arena.size - 1 }
  else arena

/-- The live keys and their values, in slot order. -/
def toList (arena : Arena kind α) : List (Key kind × α) :=
  arena.slots.toList.zipIdx.filterMap fun (slot, index) =>
    match slot with
    | .occupied generation value => some (⟨index, generation⟩, value)
    | .vacant _ _ => none

def isEmpty (arena : Arena kind α) : Bool := arena.size == 0

end Arena

end MixedInteger
