import MixedInteger.Proofs.Identity.Slots

/-! # Free lists

The links of the vacant slots form one list that starts at the free head, and
the size counts the slots that are occupied (`Arena.WellFormed`). Insertion,
replacement and removal keep both, so an insertion is refused only by an arena
whose slots are all occupied.
-/

namespace MixedInteger

/-- Following the links from the first slot visits these slots, which are all
vacant, and ends. -/
inductive FreeList {α : Type} (slots : Array (Slot α)) : Option Nat → List Nat → Prop where
  | ended : FreeList slots none []
  | visit {index : Nat} {generation : UInt32} {nextFree : Option Nat} {rest : List Nat}
      (vacant : slots[index]? = some (.vacant generation nextFree))
      (following : FreeList slots nextFree rest) : FreeList slots (some index) (index :: rest)

/-- Slots off the list do not matter to it. -/
theorem FreeList.of_agree {α : Type} {slots changed : Array (Slot α)} {first : Option Nat}
    {visited : List Nat} (freeList : FreeList slots first visited)
    (agree : ∀ index ∈ visited, changed[index]? = slots[index]?) :
    FreeList changed first visited := by
  induction freeList with
  | ended => exact .ended
  | visit vacant following ih =>
      refine .visit ((agree _ List.mem_cons_self).trans vacant) (ih fun index later => ?_)
      exact agree index (List.mem_cons_of_mem _ later)

/-- A free list whose first slot is vacant goes on with what is free after that slot. -/
theorem FreeList.exists_rest {α : Type} {slots : Array (Slot α)} {index : Nat}
    {generation : UInt32} {nextFree : Option Nat} {visited : List Nat}
    (freeList : FreeList slots (some index) visited)
    (vacant : slots[index]? = some (.vacant generation nextFree)) :
    ∃ rest, visited = index :: rest ∧ FreeList slots nextFree rest := by
  cases freeList with
  | visit found following =>
      cases vacant.symm.trans found
      exact ⟨_, rfl, following⟩

namespace Arena

variable {kind : Kind} {α : Type} {arena : Arena kind α}

/-- The free list visits every vacant slot once and nothing else, the size
counts the occupied slots, and every index fits into a word. -/
structure WellFormed (arena : Arena kind α) : Prop where
  freeList : ∃ visited, FreeList arena.slots arena.freeHead visited ∧ visited.Nodup ∧
    ∀ index, index ∈ visited ↔ arena.IsVacant index
  size_eq : arena.size = arena.slots.countP Slot.isOccupied
  size_slots_le : arena.slots.size ≤ largestWord + 1

theorem wellFormed_empty : ({} : Arena kind α).WellFormed where
  freeList := ⟨[], .ended, List.nodup_nil, fun index => by simp [IsVacant]⟩
  size_eq := rfl
  size_slots_le := Nat.zero_le _

/-- A claim occupies nothing. -/
theorem countP_isOccupied_claim (arena : Arena kind α) (key : Key kind) :
    (arena.claim key).slots.countP Slot.isOccupied = arena.slots.countP Slot.isOccupied := by
  unfold claim
  dsimp only
  split
  · rfl
  · simp

/-- An insertion occupies one slot more. -/
theorem countP_isOccupied_occupy {key : Key kind} (announced : arena.nextKey = .ok key)
    (value : α) : (arena.occupy key value).slots.countP Slot.isOccupied =
      arena.slots.countP Slot.isOccupied + 1 := by
  have bound := index_le_of_nextKey announced
  have inside := index_lt_claim bound
  have free : (arena.claim key).slots[key.index].isOccupied = false := by
    have vacant := not_isOccupied_of_nextKey announced
    have slots := getElem?_slots_claim bound key.index
    rw [Array.getElem?_eq_getElem inside] at slots
    split at slots
    · rw [Option.some.inj slots]
      rfl
    · rw [IsOccupied, ← slots] at vacant
      simpa using vacant
  rw [← countP_isOccupied_claim arena key]
  unfold occupy fill
  simp [Array.setIfInBounds, inside, Array.countP_set, free]

/-- Taking the announced slot leaves the rest of the free list. -/
theorem exists_freeList_occupy {key : Key kind} (announced : arena.nextKey = .ok key) (value : α)
    {visited : List Nat} (freeList : FreeList arena.slots arena.freeHead visited)
    (nodup : visited.Nodup) : ∃ rest,
      FreeList (arena.occupy key value).slots (arena.occupy key value).freeHead rest ∧
        rest.Nodup ∧ ∀ index, index ∈ rest ↔ index ∈ visited ∧ index ≠ key.index := by
  have slots := getElem?_slots_occupy value (index_le_of_nextKey announced)
  obtain ⟨head, vacant⟩ | ⟨head, rfl, -⟩ := nextKey_eq_ok announced
  · rw [head] at freeList
    obtain ⟨rest, rfl, following⟩ := freeList.exists_rest vacant
    obtain ⟨fresh, nodup⟩ := List.nodup_cons.mp nodup
    refine ⟨rest, following.of_agree fun index later => ?_, nodup, fun index => ?_⟩
    · rw [slots, if_neg (ne_of_mem_of_not_mem later fresh)]
    · grind
  · rw [head] at freeList
    cases freeList with
    | ended =>
        have ended : arena.freeHeadAfter ⟨arena.slots.size, 0⟩ = none := by simp [freeHeadAfter]
        have head : (arena.occupy ⟨arena.slots.size, 0⟩ value).freeHead = none := ended
        exact ⟨[], head ▸ .ended, nodup, by simp⟩

/-- An insertion keeps an arena well formed. -/
theorem WellFormed.occupy {key : Key kind} (wellFormed : arena.WellFormed)
    (announced : arena.nextKey = .ok key) (value : α) : (arena.occupy key value).WellFormed where
  freeList := by
    obtain ⟨visited, freeList, nodup, exact⟩ := wellFormed.freeList
    obtain ⟨rest, freeList, nodup, mem_iff⟩ := exists_freeList_occupy announced value freeList nodup
    refine ⟨rest, freeList, nodup, fun index => ?_⟩
    have slots := getElem?_slots_occupy value (index_le_of_nextKey announced)
    rw [mem_iff, exact, IsVacant, IsVacant, slots]
    split <;> simp [*]
  size_eq := by
    rw [countP_isOccupied_occupy announced value, ← wellFormed.size_eq]
    rfl
  size_slots_le := by
    have sized : (arena.occupy key value).slots.size = (arena.claim key).slots.size :=
      Array.size_setIfInBounds
    rw [sized, size_slots_claim]
    obtain ⟨-, vacant⟩ | ⟨-, rfl, room⟩ := nextKey_eq_ok announced
    · rw [if_pos (Array.getElem?_eq_some_iff.mp vacant).1]
      exact wellFormed.size_slots_le
    · rw [if_neg (Nat.lt_irrefl _)]
      exact Nat.succ_le_succ room

/-- The slot of a live key is not vacant. -/
theorem not_isVacant_of_contains {key : Key kind} (live : arena.contains key = true) :
    ¬ arena.IsVacant key.index := by
  obtain ⟨inside, value, found⟩ := exists_occupied_of_contains live
  simp [IsVacant, inside, found]

/-- A replacement occupies as many slots as before. -/
theorem countP_isOccupied_set {key : Key kind} (live : arena.contains key = true) (value : α) :
    (arena.set key value).slots.countP Slot.isOccupied = arena.slots.countP Slot.isOccupied := by
  obtain ⟨inside, old, found⟩ := exists_occupied_of_contains live
  have counted : 0 < arena.slots.countP Slot.isOccupied :=
    Array.countP_pos_iff.mpr ⟨_, Array.getElem_mem inside, by simp [found]⟩
  simp only [set, live, ↓reduceIte, Array.setIfInBounds, inside, ↓reduceDIte, Array.countP_set,
    found, Slot.isOccupied_occupied]
  omega

/-- A removal occupies one slot fewer. -/
theorem countP_isOccupied_erase {key : Key kind} (live : arena.contains key = true) :
    (arena.erase key).slots.countP Slot.isOccupied =
      arena.slots.countP Slot.isOccupied - 1 := by
  obtain ⟨inside, value, found⟩ := exists_occupied_of_contains live
  simp [erase, live, Array.setIfInBounds, inside, Array.countP_set, found]

/-- A replacement keeps an arena well formed. -/
theorem WellFormed.set {key : Key kind} (wellFormed : arena.WellFormed)
    (live : arena.contains key = true) (value : α) : (arena.set key value).WellFormed where
  freeList := by
    obtain ⟨visited, freeList, nodup, exact⟩ := wellFormed.freeList
    have slots := getElem?_slots_set live value
    have head : (arena.set key value).freeHead = arena.freeHead := by simp [Arena.set, live]
    have notVacant := not_isVacant_of_contains live
    refine ⟨visited, head ▸ freeList.of_agree fun index listed => ?_, nodup, fun index => ?_⟩
    · have vacant := (exact index).mp listed
      rw [slots, if_neg (fun same : index = key.index => notVacant (same ▸ vacant))]
    · rw [exact]
      by_cases same : index = key.index
      · simpa [same, IsVacant, slots] using notVacant
      · simp [same, IsVacant, slots]
  size_eq := by
    rw [countP_isOccupied_set live, ← wellFormed.size_eq]
    simp [Arena.set, live]
  size_slots_le := by simpa [Arena.set, live] using wellFormed.size_slots_le

/-- A removal keeps an arena well formed. -/
theorem WellFormed.erase {key : Key kind} (wellFormed : arena.WellFormed)
    (live : arena.contains key = true) : (arena.erase key).WellFormed where
  freeList := by
    obtain ⟨visited, freeList, nodup, exact⟩ := wellFormed.freeList
    have slots := getElem?_slots_erase live
    have fresh : key.index ∉ visited := fun listed =>
      not_isVacant_of_contains live ((exact _).mp listed)
    have head : (arena.erase key).freeHead = some key.index := by simp [Arena.erase, live]
    have freed := slots key.index
    rw [if_pos rfl] at freed
    refine ⟨key.index :: visited, ?_, List.nodup_cons.mpr ⟨fresh, nodup⟩, fun index => ?_⟩
    · refine head ▸ .visit freed (freeList.of_agree fun index listed => ?_)
      rw [slots, if_neg (ne_of_mem_of_not_mem listed fresh)]
    · rw [List.mem_cons, exact]
      by_cases same : index = key.index
      · simp [same, IsVacant, slots]
      · simp [same, IsVacant, slots]
  size_eq := by
    rw [countP_isOccupied_erase live, ← wellFormed.size_eq]
    simp [Arena.erase, live]
  size_slots_le := by simpa [Arena.erase, live] using wellFormed.size_slots_le

/-- Only an arena whose slots are all occupied has no key to announce. -/
theorem WellFormed.nextKey_total (wellFormed : arena.WellFormed) :
    (∃ key, arena.nextKey = .ok key) ∨
      (arena.nextKey = .error .arenaFull ∧ arena.size = largestWord + 1) := by
  obtain ⟨visited, freeList, -, exact⟩ := wellFormed.freeList
  unfold nextKey
  cases head : arena.freeHead with
  | some index =>
      rw [head] at freeList
      cases freeList with
      | @visit _ generation _ _ vacant => exact .inl ⟨⟨index, generation⟩, by simp only [vacant]⟩
  | none =>
      rw [head] at freeList
      cases freeList
      by_cases room : arena.slots.size ≤ largestWord
      · exact .inl ⟨_, if_pos room⟩
      · have allOccupied : arena.slots.countP Slot.isOccupied = arena.slots.size := by
          refine Array.countP_eq_size.mpr fun slot member => ?_
          obtain ⟨index, inside, rfl⟩ := Array.getElem_of_mem member
          simpa [IsVacant, inside] using exact index
        have bounded := wellFormed.size_slots_le
        have counted := wellFormed.size_eq
        exact .inr ⟨if_neg room, by omega⟩

end Arena

end MixedInteger
