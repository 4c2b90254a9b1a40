import Mathlib.Algebra.Group.Nat.Defs
import Mathlib.Data.List.Nodup
import MixedInteger.Proofs.Identity.FreeList
import MixedInteger.Proofs.Outcome

/-! # Histories of arenas

What the keys of an arena resolve to, how often each of its slots has been freed
and which keys it has issued follow from the operations it has answered. An
arena that starts empty always agrees with its history
(`Arena.session_agrees`). It is a finite map, and until a slot has been freed
`2 ^ 32` times no key is issued twice and no removed key resolves again
(`Arena.session_finiteMap`).
-/

namespace MixedInteger

namespace Arena

/-- A change that a caller asks of an arena. -/
inductive Operation (kind : Kind) (α : Type) where
  | insert (value : α)
  | insertWith (make : Key kind → α)
  | write (key : Key kind) (value : α)
  | remove (key : Key kind)

/-- An operation that has been answered. -/
inductive Event (kind : Kind) (α : Type) where
  | inserted (key : Key kind) (value : α)
  | written (key : Key kind) (value : α)
  | removed (key : Key kind)

variable {kind : Kind} {α : Type}

/-- The key that an operation was answered with or was about. -/
def Event.key : Event kind α → Key kind
  | .inserted key _ => key
  | .written key _ => key
  | .removed key => key

/-- Answer an operation, or refuse it. -/
def perform (arena : Arena kind α) :
    Operation kind α → Except Violation (Event kind α × Arena kind α)
  | .insert value => do
      let (key, next) ← arena.insert value
      return (.inserted key value, next)
  | .insertWith make => do
      let (key, next) ← arena.insertWith make
      return (.inserted key (make key), next)
  | .write key value => return (.written key value, arena.set key value)
  | .remove key => return (.removed key, arena.erase key)

/-- The answered operations, the latest first. -/
abbrev History (kind : Kind) (α : Type) := List (Event kind α)

namespace History

/-- The value last stored under a key, unless it has been removed since. A key
that stands for nothing is not written. -/
def lookup (key : Key kind) : History kind α → Option α
  | [] => none
  | .inserted other value :: earlier => if other = key then some value else lookup key earlier
  | .written other value :: earlier =>
      if other = key then (lookup other earlier).map fun _ => value else lookup key earlier
  | .removed other :: earlier => if other = key then none else lookup key earlier

/-- The keys that stood for a value when they were removed. -/
def removals : History kind α → List (Key kind)
  | [] => []
  | .removed key :: earlier =>
      if (lookup key earlier).isSome then key :: removals earlier else removals earlier
  | .inserted _ _ :: earlier | .written _ _ :: earlier => removals earlier

/-- How often a slot has been freed. -/
def freed (history : History kind α) (index : Nat) : Nat :=
  history.removals.countP (·.index = index)

/-- The keys that insertions have returned. -/
def issued : History kind α → List (Key kind)
  | [] => []
  | .inserted key _ :: earlier => key :: issued earlier
  | .written _ _ :: earlier | .removed _ :: earlier => issued earlier

/-- For each insertion the slot it took, and how often that slot had been freed
by then. -/
def tenancies : History kind α → List (Nat × Nat)
  | [] => []
  | .inserted key _ :: earlier => (key.index, freed earlier key.index) :: tenancies earlier
  | .written _ _ :: earlier | .removed _ :: earlier => tenancies earlier

variable {history : History kind α}

/-- An operation on one key says nothing about another. -/
theorem lookup_of_ne {key : Key kind} {event : Event kind α} (different : key ≠ event.key) :
    lookup key (event :: history) = lookup key history := by
  cases event <;> exact if_neg (Ne.symm different)

/-- The removal of a live key is recorded. -/
theorem removals_removed_of_live {key : Key kind} (live : (history.lookup key).isSome = true) :
    removals (.removed key :: history) = key :: history.removals :=
  if_pos live

/-- The removal of a key that stands for nothing is not recorded. -/
theorem removals_removed_of_stale {key : Key kind} (stale : ¬ (history.lookup key).isSome = true) :
    removals (.removed key :: history) = history.removals :=
  if_neg stale

/-- The removal of a key that stands for nothing frees no slot. -/
theorem freed_removed_of_stale {key : Key kind} (stale : ¬ (history.lookup key).isSome = true)
    (index : Nat) : freed (.removed key :: history) index = freed history index := by
  simp only [freed, removals_removed_of_stale stale]

/-- The removal of a live key frees its slot once more. -/
theorem freed_removed_of_live {key : Key kind} (live : (history.lookup key).isSome = true)
    (index : Nat) : freed (.removed key :: history) index =
      freed history index + if key.index = index then 1 else 0 := by
  simp only [freed, removals_removed_of_live live, List.countP_cons, decide_eq_true_eq]

end History

/-- One operation on an arena with its history. A refused operation changes
nothing. -/
def answer (recorded : History kind α × Arena kind α) (operation : Operation kind α) :
    History kind α × Arena kind α :=
  match recorded.2.perform operation with
  | .ok (event, next) => (event :: recorded.1, next)
  | .error _ => recorded

/-- The history and the arena after operations on an empty arena. -/
def session (operations : List (Operation kind α)) : History kind α × Arena kind α :=
  operations.foldl answer ([], {})

/-- The generation of every slot counts how often the slot has been freed. -/
structure CountsFrees (arena : Arena kind α) (history : History kind α) : Prop where
  freed_eq_zero : ∀ index, arena.slots[index]? = none → history.freed index = 0
  generation_eq : ∀ index slot, arena.slots[index]? = some slot →
    slot.generation = UInt32.ofNat (history.freed index)

/-- What an arena owes to the operations it has answered. -/
structure Agrees (arena : Arena kind α) (history : History kind α) : Prop where
  wellFormed : arena.WellFormed
  get?_eq : ∀ key, arena.get? key = history.lookup key
  countsFrees : arena.CountsFrees history
  issued_eq : history.issued =
    history.tenancies.map fun tenancy => ⟨tenancy.1, UInt32.ofNat tenancy.2⟩
  tenancies_nodup : history.tenancies.Nodup
  /-- A tenancy has ended, or it is that of the slot's occupant. -/
  tenancy_cases : ∀ index count, (index, count) ∈ history.tenancies →
    count < history.freed index ∨ (count = history.freed index ∧ arena.IsOccupied index)
  removed : ∀ key ∈ history.removals,
    ∃ count < history.freed key.index, key.generation = UInt32.ofNat count

variable {arena next : Arena kind α} {history later : History kind α} {key : Key kind}

theorem agrees_empty : ({} : Arena kind α).Agrees [] where
  wellFormed := wellFormed_empty
  get?_eq _ := rfl
  countsFrees := ⟨fun _ _ => rfl, fun _ _ found => by cases found⟩
  issued_eq := rfl
  tenancies_nodup := List.nodup_nil
  tenancy_cases := nofun
  removed := nofun

/-! ## Generations -/

/-- Replacing one slot keeps the count of frees, if it is right there and no other slot was
freed. -/
theorem CountsFrees.replaced {changed : Nat} {slot : Slot α} (counts : arena.CountsFrees history)
    (slots : ∀ index, next.slots[index]? =
      if index = changed then some slot else arena.slots[index]?)
    (here : slot.generation = UInt32.ofNat (later.freed changed))
    (elsewhere : ∀ index, index ≠ changed → later.freed index = history.freed index) :
    next.CountsFrees later where
  freed_eq_zero index outside := by
    rw [slots] at outside
    split at outside
    · cases outside
    · rename_i different
      rw [elsewhere index different, counts.freed_eq_zero index outside]
  generation_eq index found held := by
    rw [slots] at held
    split at held
    · rename_i same
      cases held
      exact same ▸ here
    · rename_i different
      rw [elsewhere index different, counts.generation_eq index found held]

/-- An insertion issues its key at the generation that the slot has reached. -/
theorem CountsFrees.generation_of_nextKey (counts : arena.CountsFrees history)
    (announced : arena.nextKey = .ok key) :
    key.generation = UInt32.ofNat (history.freed key.index) := by
  obtain ⟨-, vacant⟩ | ⟨-, rfl, -⟩ := nextKey_eq_ok announced
  · exact counts.generation_eq _ _ vacant
  · rw [counts.freed_eq_zero _ (Array.getElem?_eq_none (Nat.le_refl _))]
    rfl

/-- A live key has the generation that its slot has reached. -/
theorem CountsFrees.generation_of_contains (counts : arena.CountsFrees history)
    (live : arena.contains key = true) :
    key.generation = UInt32.ofNat (history.freed key.index) := by
  obtain ⟨value, found⟩ := contains_iff.mp live
  exact counts.generation_eq _ _ found

/-! ## What the operations keep -/

/-- An insertion keeps an arena in agreement with its history. -/
theorem Agrees.occupy (agrees : arena.Agrees history) (announced : arena.nextKey = .ok key)
    (value : α) : (arena.occupy key value).Agrees (.inserted key value :: history) := by
  have slots := getElem?_slots_occupy value (index_le_of_nextKey announced)
  have generation := agrees.countsFrees.generation_of_nextKey announced
  refine
    { wellFormed := agrees.wellFormed.occupy announced value
      get?_eq := fun other => by rw [get?_occupy announced, agrees.get?_eq, History.lookup]
      countsFrees := agrees.countsFrees.replaced slots generation fun _ _ => rfl
      issued_eq := ?_
      tenancies_nodup := List.nodup_cons.mpr ⟨fun earlier => ?_, agrees.tenancies_nodup⟩
      tenancy_cases := fun index count listed => ?_
      removed := agrees.removed }
  · simp only [History.issued, History.tenancies, List.map_cons, ← agrees.issued_eq, ← generation]
  · obtain ended | ⟨-, occupied⟩ := agrees.tenancy_cases _ _ earlier
    · exact Nat.lt_irrefl _ ended
    · exact not_isOccupied_of_nextKey announced occupied
  · obtain current | earlier := List.mem_cons.mp listed
    · cases current
      exact .inr ⟨rfl, by rw [isOccupied_of_replaced slots, if_pos rfl]; rfl⟩
    · exact (agrees.tenancy_cases index count earlier).imp_right
        (And.imp_right (IsOccupied.of_replaced slots rfl))

/-- A replacement keeps an arena in agreement with its history, whether or not the key resolves. -/
theorem Agrees.set (agrees : arena.Agrees history) (key : Key kind) (value : α) :
    (arena.set key value).Agrees (.written key value :: history) := by
  have lookup : ∀ other, (arena.set key value).get? other =
      History.lookup other (.written key value :: history) := fun other => by
    rw [get?_set, agrees.get?_eq, agrees.get?_eq, History.lookup]
  by_cases live : arena.contains key = true
  · have slots := getElem?_slots_set live value
    have generation := agrees.countsFrees.generation_of_contains live
    exact
      { agrees with
        wellFormed := agrees.wellFormed.set live value
        get?_eq := lookup
        countsFrees := agrees.countsFrees.replaced slots generation fun _ _ => rfl
        tenancy_cases := fun index count listed =>
          (agrees.tenancy_cases index count listed).imp_right
            (And.imp_right (IsOccupied.of_replaced slots rfl)) }
  · rw [set_of_not_contains live] at lookup ⊢
    obtain ⟨freed_eq_zero, generation_eq⟩ := agrees.countsFrees
    exact { agrees with get?_eq := lookup, countsFrees := ⟨freed_eq_zero, generation_eq⟩ }

/-- A removal of a key that resolves ends the tenancy of its slot. -/
theorem Agrees.erase_of_contains (agrees : arena.Agrees history)
    (live : arena.contains key = true) :
    (arena.erase key).Agrees (.removed key :: history) := by
  have resolved : (history.lookup key).isSome = true := agrees.get?_eq key ▸ live
  have generation := agrees.countsFrees.generation_of_contains live
  have slots := getElem?_slots_erase live
  have freed := History.freed_removed_of_live resolved
  refine
    { wellFormed := agrees.wellFormed.erase live
      get?_eq := fun other => by rw [get?_erase, agrees.get?_eq, History.lookup]
      countsFrees := agrees.countsFrees.replaced slots ?_ fun index different => ?_
      issued_eq := agrees.issued_eq
      tenancies_nodup := agrees.tenancies_nodup
      tenancy_cases := fun index count listed => ?_
      removed := fun other listed => ?_ }
  · rw [freed, if_pos rfl, UInt32.ofNat_add, ← generation]
    rfl
  · rw [freed, if_neg (Ne.symm different), Nat.add_zero]
  · rw [isOccupied_of_replaced slots, freed]
    have before := agrees.tenancy_cases index count listed
    grind
  · rw [History.removals_removed_of_live resolved] at listed
    rw [freed]
    obtain rfl | earlier := List.mem_cons.mp listed
    · exact ⟨_, by simp, generation⟩
    · obtain ⟨count, ended, generation⟩ := agrees.removed other earlier
      exact ⟨count, by omega, generation⟩

/-- A removal keeps an arena in agreement with its history, whether or not the key resolves. -/
theorem Agrees.erase (agrees : arena.Agrees history) (key : Key kind) :
    (arena.erase key).Agrees (.removed key :: history) := by
  by_cases live : arena.contains key = true
  · exact agrees.erase_of_contains live
  · have stale : ¬ (history.lookup key).isSome = true := agrees.get?_eq key ▸ live
    have lookup : ∀ other, (arena.erase key).get? other =
        History.lookup other (.removed key :: history) := fun other => by
      rw [get?_erase, agrees.get?_eq, History.lookup]
    have freed := History.freed_removed_of_stale stale
    rw [erase_of_not_contains live] at lookup ⊢
    exact
      { agrees with
        get?_eq := lookup
        countsFrees := by
          obtain ⟨freed_eq_zero, generation_eq⟩ := agrees.countsFrees
          exact ⟨by simpa only [freed], by simpa only [freed]⟩
        tenancy_cases := fun index count listed =>
          (freed index).symm ▸ agrees.tenancy_cases index count listed
        removed := by
          simpa only [freed, History.removals_removed_of_stale stale] using agrees.removed }

/-! ## Performing operations -/

/-- Inserting a value is making it from its key without looking at the key. -/
theorem perform_insert (arena : Arena kind α) (value : α) :
    arena.perform (.insert value) = arena.perform (.insertWith fun _ => value) := rfl

/-- An insertion that is answered has taken the announced key. -/
theorem perform_insertWith_eq_ok {make : Key kind → α} {event : Event kind α}
    (performed : arena.perform (.insertWith make) = .ok (event, next)) :
    ∃ key, arena.nextKey = .ok key ∧ event = .inserted key (make key) ∧
      next = arena.occupy key (make key) := by
  obtain ⟨⟨key, occupied⟩, inserted, returned⟩ := Outcome.bind_eq_ok_iff.mp performed
  obtain ⟨key, announced, made⟩ := Outcome.bind_eq_ok_iff.mp inserted
  cases made
  cases returned
  exact ⟨key, announced, rfl, rfl⟩

/-- Only a full arena refuses an operation. -/
theorem WellFormed.perform_total (wellFormed : arena.WellFormed) (operation : Operation kind α) :
    (∃ answer, arena.perform operation = .ok answer) ∨
      (arena.perform operation = .error .arenaFull ∧ arena.size = largestWord + 1) := by
  have insertion : ∀ make : Key kind → α,
      (∃ answer, arena.perform (.insertWith make) = .ok answer) ∨
        (arena.perform (.insertWith make) = .error .arenaFull ∧
          arena.size = largestWord + 1) := fun make => by
    unfold perform insertWith
    obtain ⟨key, announced⟩ | ⟨refused, full⟩ := wellFormed.nextKey_total
    · exact .inl ⟨_, by rw [announced]; rfl⟩
    · exact .inr ⟨by rw [refused]; rfl, full⟩
  cases operation with
  | insert value => exact insertion fun _ => value
  | insertWith make => exact insertion make
  | write key value => exact .inl ⟨_, rfl⟩
  | remove key => exact .inl ⟨_, rfl⟩

/-- Every answered operation keeps an arena in agreement with its history. -/
theorem Agrees.perform (agrees : arena.Agrees history) {operation : Operation kind α}
    {event : Event kind α} (performed : arena.perform operation = .ok (event, next)) :
    next.Agrees (event :: history) := by
  cases operation with
  | insert value =>
      rw [perform_insert] at performed
      obtain ⟨key, announced, rfl, rfl⟩ := perform_insertWith_eq_ok performed
      exact agrees.occupy announced value
  | insertWith make =>
      obtain ⟨key, announced, rfl, rfl⟩ := perform_insertWith_eq_ok performed
      exact agrees.occupy announced (make key)
  | write key value =>
      cases performed
      exact agrees.set key value
  | remove key =>
      cases performed
      exact agrees.erase key

/-- Answered or refused, an operation keeps an arena in agreement with its history. -/
theorem Agrees.answer {recorded : History kind α × Arena kind α}
    (agrees : recorded.2.Agrees recorded.1) (operation : Operation kind α) :
    (answer recorded operation).2.Agrees (answer recorded operation).1 := by
  unfold Arena.answer
  split
  · rename_i performed
    exact agrees.perform performed
  · exact agrees

/-- **An arena agrees with its history** after any operations. -/
theorem session_agrees (operations : List (Operation kind α)) :
    (session operations).2.Agrees (session operations).1 := by
  suffices run : ∀ recorded : History kind α × Arena kind α, recorded.2.Agrees recorded.1 →
      (operations.foldl answer recorded).2.Agrees (operations.foldl answer recorded).1 from
    run _ agrees_empty
  induction operations with
  | nil => exact fun _ agrees => agrees
  | cons operation later ih => exact fun _ agrees => ih _ (agrees.answer operation)

/-- An operation on one key changes nothing for another key. -/
theorem Agrees.get?_of_perform (agrees : arena.Agrees history) {operation : Operation kind α}
    {event : Event kind α} (performed : arena.perform operation = .ok (event, next))
    {other : Key kind} (different : other ≠ event.key) : next.get? other = arena.get? other := by
  rw [(agrees.perform performed).get?_eq, agrees.get?_eq, History.lookup_of_ne different]

/-! ## Keys over a whole history -/

/-- Counts below the width of a word are told apart by their words. -/
theorem ofNat_inj_of_lt {first second : Nat} (firstFits : first < 2 ^ 32)
    (secondFits : second < 2 ^ 32) (same : UInt32.ofNat first = UInt32.ofNat second) :
    first = second := by
  have same := congrArg UInt32.toNat same
  rwa [UInt32.toNat_ofNat', UInt32.toNat_ofNat', Nat.mod_eq_of_lt firstFits,
    Nat.mod_eq_of_lt secondFits] at same

/-- While no slot has wrapped around, no key is issued twice. -/
theorem Agrees.issued_nodup (agrees : arena.Agrees history)
    (young : ∀ index, history.freed index < 2 ^ 32) : history.issued.Nodup := by
  have fits : ∀ tenancy ∈ history.tenancies, tenancy.2 < 2 ^ 32 := fun tenancy listed => by
    have reached := agrees.tenancy_cases tenancy.1 tenancy.2 listed
    have young := young tenancy.1
    omega
  rw [agrees.issued_eq]
  refine List.Nodup.map_on (fun first firstListed second secondListed same => ?_)
    agrees.tenancies_nodup
  obtain ⟨sameSlot, sameGeneration⟩ := Key.eq_iff.mp same
  exact Prod.ext sameSlot
    (ofNat_inj_of_lt (fits first firstListed) (fits second secondListed) sameGeneration)

/-- While no slot has wrapped around, a removed key does not resolve. -/
theorem Agrees.get?_of_removed (agrees : arena.Agrees history)
    (young : ∀ index, history.freed index < 2 ^ 32) {key : Key kind}
    (removed : key ∈ history.removals) : arena.get? key = none := by
  refine Option.eq_none_iff_forall_ne_some.mpr fun value resolved => ?_
  obtain ⟨count, ended, generation⟩ := agrees.removed key removed
  have current := agrees.countsFrees.generation_eq _ _ (get?_eq_some_iff.mp resolved)
  have young := young key.index
  have same := ofNat_inj_of_lt (Nat.lt_trans ended young) young (generation.symm.trans current)
  omega

/-- After any operations on an empty arena, its free list visits the vacant slots
and nothing else, so that only a full arena refuses an operation. Its size and
its list are those of a finite map, in which every key has the value last stored
under it. While every slot has been freed less than `2 ^ 32` times, no key has
been issued twice, and no removed key resolves. -/
theorem session_finiteMap {operations : List (Operation kind α)}
    (recorded : session operations = (history, arena)) :
    (∃ visited, FreeList arena.slots arena.freeHead visited ∧ visited.Nodup ∧
      ∀ index, index ∈ visited ↔ arena.IsVacant index) ∧
    (∀ operation, (∃ answer, arena.perform operation = .ok answer) ∨
      (arena.perform operation = .error .arenaFull ∧ arena.size = largestWord + 1)) ∧
    arena.size = arena.slots.countP Slot.isOccupied ∧
    arena.toList.Pairwise (fun first second => first.1.index < second.1.index) ∧
    (∀ key value, (key, value) ∈ arena.toList ↔ arena.get? key = some value) ∧
    (∀ index (inside : index < arena.slots.size),
      arena.slots[index].generation.toNat = history.freed index % 2 ^ 32) ∧
    (∀ key, arena.get? key = history.lookup key) ∧
    (∀ key, (arena.get? key).isSome = true ↔
      ∃ value, arena.slots[key.index]? = some (.occupied key.generation value)) ∧
    (∀ operation event next, arena.perform operation = .ok (event, next) →
      ∀ other, other ≠ event.key → next.get? other = arena.get? other) ∧
    ((∀ index, history.freed index < 2 ^ 32) →
      history.issued.Nodup ∧ ∀ key ∈ history.removals, arena.get? key = none) := by
  have agrees := session_agrees operations
  rw [recorded] at agrees
  have generation (index : Nat) (inside : index < arena.slots.size) :
      arena.slots[index].generation.toNat = history.freed index % 2 ^ 32 := by
    have counted := agrees.countsFrees.generation_eq index _ (Array.getElem?_eq_getElem inside)
    rw [counted, UInt32.toNat_ofNat']
  exact ⟨agrees.wellFormed.freeList, agrees.wellFormed.perform_total, agrees.wellFormed.size_eq,
    toList_pairwise arena, fun _ _ => mem_toList, generation, agrees.get?_eq,
    fun _ => contains_iff, fun _ _ _ performed _ => agrees.get?_of_perform performed,
    fun young => ⟨agrees.issued_nodup young, fun _ => agrees.get?_of_removed young⟩⟩

/-- A slot that is freed and taken again. -/
def reusedSlot : List (Operation .graph Nat) :=
  [.insert 7, .remove ⟨0, 0⟩, .insert 8, .write ⟨0, 0⟩ 9]

/-- The slot is taken again at the next generation, and the old key stays dead. -/
theorem session_finiteMap_reusedSlot :
    (session reusedSlot).1.issued = [⟨0, 1⟩, ⟨0, 0⟩] ∧ (session reusedSlot).1.issued.Nodup ∧
      (session reusedSlot).2.get? ⟨0, 0⟩ = none ∧ (session reusedSlot).2.get? ⟨0, 1⟩ = some 8 := by
  obtain ⟨-, -, -, -, -, -, resolves, -, -, unrepeated⟩ :=
    @session_finiteMap _ _ (session reusedSlot).2 (session reusedSlot).1 reusedSlot rfl
  have removals : (session reusedSlot).1.removals = [⟨0, 0⟩] := rfl
  have young (index : Nat) : (session reusedSlot).1.freed index < 2 ^ 32 := by
    have once : (session reusedSlot).1.freed index ≤ 1 := List.countP_le_length
    omega
  obtain ⟨distinct, removed⟩ := unrepeated young
  exact ⟨rfl, distinct, removed _ (by simp [removals]), by rw [resolves]; rfl⟩

end Arena

end MixedInteger
