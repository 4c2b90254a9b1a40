import MixedInteger.Identity.Arena

/-! # Slots and lookups

What one operation does to an arena, seen slot by slot and key by key. The
occupied slots are the entries of a finite map from keys to values, which the
list of the live keys enumerates in slot order.
-/

namespace MixedInteger

/-- Two keys are equal when they agree on slot and generation. -/
theorem Key.eq_iff {kind : Kind} {first second : Key kind} :
    first = second ↔ first.index = second.index ∧ first.generation = second.generation := by
  cases first
  cases second
  simp

namespace Slot

variable {α : Type}

/-- Whether a slot holds a value. -/
def isOccupied : Slot α → Bool
  | .occupied _ _ => true
  | .vacant _ _ => false

@[simp] theorem isOccupied_occupied (generation : UInt32) (value : α) :
    (occupied generation value).isOccupied = true := rfl

@[simp] theorem isOccupied_vacant (generation : UInt32) (nextFree : Option Nat) :
    (vacant generation nextFree : Slot α).isOccupied = false := rfl

/-- The generation that a slot has reached. -/
def generation : Slot α → UInt32
  | .occupied generation _ => generation
  | .vacant generation _ => generation

end Slot

namespace Arena

variable {kind : Kind} {α : Type} {arena : Arena kind α}

/-- Whether there is a slot at an index and it holds nothing. -/
def IsVacant (arena : Arena kind α) (index : Nat) : Prop :=
  arena.slots[index]?.map Slot.isOccupied = some false

/-- Whether there is a slot at an index and it holds a value. -/
def IsOccupied (arena : Arena kind α) (index : Nat) : Prop :=
  arena.slots[index]?.map Slot.isOccupied = some true

/-- A vacant slot has a generation and a link. -/
theorem isVacant_iff {index : Nat} : arena.IsVacant index ↔
    ∃ generation nextFree, arena.slots[index]? = some (.vacant generation nextFree) := by
  unfold IsVacant
  cases arena.slots[index]? with
  | none => simp
  | some slot => cases slot <;> simp

/-- An occupied slot has a generation and a value. -/
theorem isOccupied_iff {index : Nat} : arena.IsOccupied index ↔
    ∃ generation value, arena.slots[index]? = some (.occupied generation value) := by
  unfold IsOccupied
  cases arena.slots[index]? with
  | none => simp
  | some slot => cases slot <;> simp

/-- No slot is both vacant and occupied. -/
theorem IsVacant.not_isOccupied {index : Nat} (vacant : arena.IsVacant index) :
    ¬ arena.IsOccupied index := by
  intro occupied
  cases vacant.symm.trans occupied

/-- There is nothing in a slot behind all others. -/
theorem not_isOccupied_of_size_le {index : Nat} (outside : arena.slots.size ≤ index) :
    ¬ arena.IsOccupied index := by
  simp [IsOccupied, Array.getElem?_eq_none outside]

/-! ## Lookups -/

/-- A key resolves to the value of its slot if the generations agree. -/
theorem get?_eq_some_iff {key : Key kind} {value : α} :
    arena.get? key = some value ↔
      arena.slots[key.index]? = some (.occupied key.generation value) := by
  unfold get?
  cases arena.slots[key.index]? with
  | none => simp
  | some slot => cases slot <;> simp [and_comm, eq_comm]

/-- A key is live when its slot is occupied at its generation. -/
theorem contains_iff {key : Key kind} : arena.contains key = true ↔
    ∃ value, arena.slots[key.index]? = some (.occupied key.generation value) := by
  simp only [contains, Option.isSome_iff_exists, get?_eq_some_iff]

/-- A key of a slot that holds nothing does not resolve. -/
theorem get?_eq_none_of_not_isOccupied {key : Key kind}
    (free : ¬ arena.IsOccupied key.index) : arena.get? key = none := by
  refine Option.eq_none_iff_forall_ne_some.mpr fun value resolved => free ?_
  exact isOccupied_iff.mpr ⟨_, _, get?_eq_some_iff.mp resolved⟩

/-- Whether a key resolves is a matter of its slot alone. -/
theorem get?_congr {next : Arena kind α} {key : Key kind}
    (same : next.slots[key.index]? = arena.slots[key.index]?) : next.get? key = arena.get? key := by
  unfold get?
  rw [same]

/-- The list of the live keys is in slot order. -/
theorem toList_pairwise (arena : Arena kind α) :
    arena.toList.Pairwise fun first second => first.1.index < second.1.index := by
  have numbered : arena.slots.toList.zipIdx.Pairwise fun first second => first.2 < second.2 := by
    rw [← List.pairwise_map, List.zipIdx_map_snd]
    exact List.pairwise_lt_range'
  refine List.pairwise_filterMap.mpr (numbered.imp ?_)
  rintro ⟨first, firstIndex⟩ ⟨second, secondIndex⟩ before entry listed entry' listed'
  cases first <;> cases second <;> cases listed <;> cases listed'
  exact before

/-- The list of an arena holds exactly what its keys resolve to. -/
theorem mem_toList {entry : Key kind × α} :
    entry ∈ arena.toList ↔ arena.get? entry.1 = some entry.2 := by
  obtain ⟨⟨index, generation⟩, value⟩ := entry
  simp only [get?_eq_some_iff, toList, List.mem_filterMap, Prod.exists,
    List.mem_zipIdx_iff_getElem?, Array.getElem?_toList]
  constructor
  · rintro ⟨slot, place, found, listed⟩
    cases slot <;> cases listed
    exact found
  · intro found
    exact ⟨_, index, found, rfl⟩

/-! ## What the operations do to the slots -/

/-- An announced key names either the slot at the free head, which is vacant at
the key's generation, or a new slot behind all others. -/
theorem nextKey_eq_ok {key : Key kind} (announced : arena.nextKey = .ok key) :
    (arena.freeHead = some key.index ∧
      arena.slots[key.index]? = some (.vacant key.generation (arena.freeHeadAfter key))) ∨
    (arena.freeHead = none ∧ key = ⟨arena.slots.size, 0⟩ ∧ arena.slots.size ≤ largestWord) := by
  unfold nextKey at announced
  split at announced
  · rename_i index head
    split at announced <;> cases announced
    rename_i vacant
    exact .inl ⟨head, by simp only [freeHeadAfter, vacant]⟩
  · rename_i head
    split at announced <;> cases announced
    rename_i room
    exact .inr ⟨head, rfl, room⟩

/-- An announced key names a slot that is there or comes next. -/
theorem index_le_of_nextKey {key : Key kind} (announced : arena.nextKey = .ok key) :
    key.index ≤ arena.slots.size := by
  obtain ⟨-, vacant⟩ | ⟨-, rfl, -⟩ := nextKey_eq_ok announced
  · exact Nat.le_of_lt (Array.getElem?_eq_some_iff.mp vacant).1
  · exact Nat.le_refl _

/-- The slot that an insertion takes is not occupied. -/
theorem not_isOccupied_of_nextKey {key : Key kind} (announced : arena.nextKey = .ok key) :
    ¬ arena.IsOccupied key.index := by
  obtain ⟨-, vacant⟩ | ⟨-, rfl, -⟩ := nextKey_eq_ok announced
  · exact (isVacant_iff.mpr ⟨_, _, vacant⟩).not_isOccupied
  · exact not_isOccupied_of_size_le (Nat.le_refl _)

/-- A claim adds a vacant slot behind all others, if it does not find the slot. -/
theorem getElem?_slots_claim {key : Key kind} (inside : key.index ≤ arena.slots.size)
    (index : Nat) : (arena.claim key).slots[index]? =
      if index = key.index ∧ key.index = arena.slots.size then some (.vacant key.generation none)
      else arena.slots[index]? := by
  unfold claim
  dsimp only
  split
  · rename_i found
    rw [if_neg fun added => Nat.ne_of_lt found added.2]
  · rename_i missing
    have last : key.index = arena.slots.size := by omega
    simp only [Array.getElem?_push, last, and_true]

/-- A claim finds its slot or adds one. -/
theorem size_slots_claim (arena : Arena kind α) (key : Key kind) : (arena.claim key).slots.size =
    if key.index < arena.slots.size then arena.slots.size else arena.slots.size + 1 := by
  unfold claim
  dsimp only
  split
  · rfl
  · exact Array.size_push _

/-- A slot that has been claimed is there. -/
theorem index_lt_claim {key : Key kind} (inside : key.index ≤ arena.slots.size) :
    key.index < (arena.claim key).slots.size := by
  rw [size_slots_claim]
  split
  · assumption
  · exact Nat.lt_succ_of_le inside

/-- What has been stored is in the slot that was announced, and in no other. -/
theorem getElem?_slots_occupy {key : Key kind} (value : α) (inside : key.index ≤ arena.slots.size)
    (index : Nat) : (arena.occupy key value).slots[index]? =
      if index = key.index then some (.occupied key.generation value) else arena.slots[index]? := by
  have claimed := index_lt_claim inside
  unfold occupy fill
  rw [Array.getElem?_setIfInBounds]
  split
  · rename_i same
    subst same
    rw [if_pos rfl]
  · rename_i different
    rw [if_neg (Ne.symm different), getElem?_slots_claim inside,
      if_neg fun same => different same.1.symm]

/-- Which slots are occupied after one of them has been replaced. -/
theorem isOccupied_of_replaced {next : Arena kind α} {changed : Nat} {slot : Slot α}
    (slots : ∀ index, next.slots[index]? =
      if index = changed then some slot else arena.slots[index]?) (index : Nat) :
    next.IsOccupied index ↔
      if index = changed then slot.isOccupied = true else arena.IsOccupied index := by
  rw [IsOccupied, slots]
  split <;> simp [IsOccupied]

/-- Replacing a slot by an occupied one vacates nothing. -/
theorem IsOccupied.of_replaced {next : Arena kind α} {changed index : Nat} {slot : Slot α}
    (slots : ∀ index, next.slots[index]? =
      if index = changed then some slot else arena.slots[index]?)
    (taken : slot.isOccupied = true) (occupied : arena.IsOccupied index) :
    next.IsOccupied index := by
  rw [isOccupied_of_replaced slots]
  split
  · exact taken
  · exact occupied

/-- The slot of a key that resolves is occupied at its generation. -/
theorem exists_occupied_of_contains {key : Key kind} (live : arena.contains key = true) :
    ∃ (inside : key.index < arena.slots.size) (value : α),
      arena.slots[key.index] = .occupied key.generation value := by
  obtain ⟨value, found⟩ := contains_iff.mp live
  obtain ⟨inside, found⟩ := Array.getElem?_eq_some_iff.mp found
  exact ⟨inside, value, found⟩

/-- A replacement of a value changes one slot. -/
theorem getElem?_slots_set {key : Key kind} (live : arena.contains key = true) (value : α)
    (index : Nat) : (arena.set key value).slots[index]? =
      if index = key.index then some (.occupied key.generation value) else arena.slots[index]? := by
  obtain ⟨inside, -⟩ := exists_occupied_of_contains live
  simp only [set, live, ↓reduceIte, Array.getElem?_setIfInBounds, inside, eq_comm]

/-- A removal vacates one slot, at the next generation, and links it to the free list. -/
theorem getElem?_slots_erase {key : Key kind} (live : arena.contains key = true) (index : Nat) :
    (arena.erase key).slots[index]? =
      if index = key.index then some (.vacant (key.generation + 1) arena.freeHead)
      else arena.slots[index]? := by
  obtain ⟨inside, -⟩ := exists_occupied_of_contains live
  simp only [erase, live, ↓reduceIte, Array.getElem?_setIfInBounds, inside, eq_comm]

/-- Nothing is stored under a key that does not resolve. -/
theorem set_of_not_contains {key : Key kind} (stale : ¬ arena.contains key = true) (value : α) :
    arena.set key value = arena :=
  if_neg stale

/-- To store what is there already changes nothing. -/
theorem set_eq_self {key : Key kind} {value : α} (live : arena.get? key = some value) :
    arena.set key value = arena := by
  have stored := get?_eq_some_iff.mp live
  rw [set, if_pos (contains_iff.mpr ⟨value, stored⟩)]
  obtain ⟨inside, stored⟩ := Array.getElem?_eq_some_iff.mp stored
  simp [Array.setIfInBounds, inside, ← stored]

/-- Nothing is removed under a key that does not resolve. -/
theorem erase_of_not_contains {key : Key kind} (stale : ¬ arena.contains key = true) :
    arena.erase key = arena :=
  if_neg stale

/-! ## What the operations do to the lookups -/

/-- A slot resolves at no key but that of its occupant. -/
theorem get?_eq_none_of_contains {key other : Key kind} (live : arena.contains key = true)
    (sameSlot : other.index = key.index) (different : other ≠ key) : arena.get? other = none := by
  obtain ⟨inside, value, found⟩ := exists_occupied_of_contains live
  have stale : key.generation ≠ other.generation := fun same =>
    different (Key.eq_iff.mpr ⟨sameSlot, same.symm⟩)
  simp [get?, sameSlot, inside, found, stale]

/-- Changing the slot of a key does not touch another key, if the slot resolves
at no other key before and after. -/
theorem get?_of_replaced {next : Arena kind α} {key other : Key kind} {slot : Slot α}
    (slots : ∀ index, next.slots[index]? =
      if index = key.index then some slot else arena.slots[index]?)
    (alone : other.index = key.index → arena.get? other = none)
    (slot_generation : slot.isOccupied = true → slot.generation = key.generation)
    (different : other ≠ key) : next.get? other = arena.get? other := by
  by_cases sameSlot : other.index = key.index
  · rw [alone sameSlot]
    refine Option.eq_none_iff_forall_ne_some.mpr fun value resolved => different ?_
    rw [get?_eq_some_iff, slots, if_pos sameSlot] at resolved
    cases resolved
    exact Key.eq_iff.mpr ⟨sameSlot, slot_generation rfl⟩
  · exact get?_congr (by rw [slots, if_neg sameSlot])

/-- A claim changes no lookup. -/
theorem get?_claim {key : Key kind} (announced : arena.nextKey = .ok key) (other : Key kind) :
    (arena.claim key).get? other = arena.get? other := by
  have slots := getElem?_slots_claim (index_le_of_nextKey announced) other.index
  by_cases added : other.index = key.index ∧ key.index = arena.slots.size
  · rw [if_pos added] at slots
    have outside : arena.slots[other.index]? = none :=
      Array.getElem?_eq_none (Nat.le_of_eq (added.1.trans added.2).symm)
    simp only [get?, slots, outside]
  · exact get?_congr (slots.trans (if_neg added))

/-- A claim lists what was listed before. -/
theorem toList_claim (arena : Arena kind α) (key : Key kind) :
    (arena.claim key).toList = arena.toList := by
  unfold claim toList
  dsimp only
  split
  · rfl
  · rw [Array.toList_push, List.zipIdx_append, List.filterMap_append]
    exact List.append_nil _

/-- An insertion gives the issued key its value. -/
theorem get?_occupy {key : Key kind} (announced : arena.nextKey = .ok key) (value : α)
    (other : Key kind) :
    (arena.occupy key value).get? other = if key = other then some value else arena.get? other := by
  have slots := getElem?_slots_occupy value (index_le_of_nextKey announced)
  split
  · rename_i same
    subst same
    exact get?_eq_some_iff.mpr (by rw [slots, if_pos rfl])
  · rename_i different
    refine get?_of_replaced slots (fun sameSlot => ?_) (fun _ => rfl) (Ne.symm different)
    exact get?_eq_none_of_not_isOccupied (sameSlot ▸ not_isOccupied_of_nextKey announced)

/-- A replacement gives a key that resolves its new value. -/
theorem get?_set (arena : Arena kind α) (key : Key kind) (value : α) (other : Key kind) :
    (arena.set key value).get? other =
      if key = other then (arena.get? key).map fun _ => value else arena.get? other := by
  by_cases live : arena.contains key = true
  · have slots := getElem?_slots_set live value
    split
    · rename_i same
      subst same
      obtain ⟨old, resolved⟩ := Option.isSome_iff_exists.mp live
      rw [resolved]
      exact get?_eq_some_iff.mpr (by rw [slots, if_pos rfl])
    · rename_i different
      have different := Ne.symm different
      have alone := (get?_eq_none_of_contains live · different)
      exact get?_of_replaced slots alone (fun _ => rfl) different
  · rw [set_of_not_contains live]
    split
    · rename_i same
      subst same
      rw [Option.not_isSome_iff_eq_none.mp live]
      rfl
    · rfl

/-- A removed key does not resolve. -/
theorem get?_erase (arena : Arena kind α) (key other : Key kind) :
    (arena.erase key).get? other = if key = other then none else arena.get? other := by
  by_cases live : arena.contains key = true
  · have slots := getElem?_slots_erase live
    split
    · rename_i same
      subst same
      simp [get?, slots]
    · rename_i different
      have different := Ne.symm different
      have alone := (get?_eq_none_of_contains live · different)
      exact get?_of_replaced slots alone nofun different
  · rw [erase_of_not_contains live]
    split
    · rename_i same
      subst same
      exact Option.not_isSome_iff_eq_none.mp live
    · rfl

/-! ## Where a value comes from -/

/-- An announced key does not resolve yet. -/
theorem get?_eq_none_of_nextKey {key : Key kind} (announced : arena.nextKey = .ok key) :
    arena.get? key = none :=
  get?_eq_none_of_not_isOccupied (not_isOccupied_of_nextKey announced)

/-- What is live stays live when something is inserted. -/
theorem get?_occupy_of_live {key other : Key kind} {value found : α}
    (announced : arena.nextKey = .ok key) (live : arena.get? other = some found) :
    (arena.occupy key value).get? other = some found := by
  rw [get?_occupy announced, if_neg, live]
  rintro rfl
  cases live.symm.trans (get?_eq_none_of_nextKey announced)

/-- What is live after an insertion has been inserted or was live before. -/
theorem get?_occupy_cases {key other : Key kind} {value found : α}
    (announced : arena.nextKey = .ok key)
    (resolved : (arena.occupy key value).get? other = some found) :
    key = other ∧ value = found ∨ key ≠ other ∧ arena.get? other = some found := by
  rw [get?_occupy announced] at resolved
  split at resolved
  · exact .inl ⟨‹_›, Option.some.inj resolved⟩
  · exact .inr ⟨‹_›, resolved⟩

/-- What is live after a replacement has been stored or was live before. -/
theorem get?_set_cases {key other : Key kind} {value found : α}
    (resolved : (arena.set key value).get? other = some found) :
    key = other ∧ value = found ∨ key ≠ other ∧ arena.get? other = some found := by
  rw [get?_set] at resolved
  split at resolved
  · obtain ⟨-, -, same⟩ := Option.map_eq_some_iff.mp resolved
    exact .inl ⟨‹_›, same⟩
  · exact .inr ⟨‹_›, resolved⟩

/-- What is live after a removal was live before. -/
theorem get?_of_get?_erase {key other : Key kind} {found : α}
    (resolved : (arena.erase key).get? other = some found) : arena.get? other = some found := by
  rw [get?_erase] at resolved
  split at resolved
  · cases resolved
  · exact resolved

end Arena

end MixedInteger
