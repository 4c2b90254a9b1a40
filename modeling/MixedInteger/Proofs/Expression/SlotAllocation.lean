import MixedInteger.Proofs.Expression.LayoutSteps

/-! # Slot allocation

Where the words suffice in which uses and slots are counted (`Graph.FitsWords`), a slot is
either free or holds the value of one node whose uses have not all been emitted. The invariant
`Layout.Accounts` says so, that the pending uses count what the nodes still to be visited read,
and that no slot is lost. Visiting a node keeps it (`Layout.Accounts.visit`), and an
instruction is never given the slot of a value that is still needed.
-/

namespace MixedInteger

variable {K : Type}

namespace Layout

/-- Whether a slot holds the value of the node at an index and the value is still
needed: by one of the uses to come, or as the root. -/
def Holds (layout : Layout K) (root : NodeIdx) (uses : List NodeIdx) (idx : NodeIdx)
    (slot : UInt32) : Prop :=
  layout.operands[idx]? = some (some (.slot slot)) ∧ (idx ∈ uses ∨ idx = root)

/-- The books of a layout, when a part of the order has been visited and certain
uses are to come. -/
structure Accounts (layout : Layout K) (graph : Graph K) (root : NodeIdx)
    (before uses : List NodeIdx) : Prop extends layout.Charts graph root before where
  /-- A word can count the uses to come. -/
  uses_le : ∀ idx, uses.count idx ≤ 2 ^ 32
  /-- The uses to come are counted. -/
  pending : ∀ idx, idx ≤ root → layout.pendingUses[idx]? = some (.ofNat (uses.count idx))
  /-- New slots are handed out in order. -/
  unused_eq : layout.unusedSlot = layout.slotCount
  free_nodup : layout.freeSlots.Nodup
  /-- Free slots have been handed out before. -/
  free_lt : ∀ slot ∈ layout.freeSlots, slot < layout.slotCount
  /-- Slots that are needed have been handed out. -/
  held_lt : ∀ idx slot, layout.Holds root uses idx slot → slot < layout.slotCount
  /-- Slots that are needed are not free. -/
  held_not_free : ∀ idx slot, layout.Holds root uses idx slot → slot ∉ layout.freeSlots
  /-- A slot is needed for one value at most. -/
  held_unique : ∀ first second slot, layout.Holds root uses first slot →
    layout.Holds root uses second slot → first = second
  /-- The slots handed out are the free ones and those of the awaited operators. -/
  balanced : layout.slotCount.toNat =
    layout.freeSlots.length + (graph.awaited root before uses).card

/-! ## Releases -/

section Release

variable {layout : Layout K} {graph : Graph K} {root child : NodeIdx} {before uses : List NodeIdx}

/-- What is needed after a use was needed before it. -/
theorem Holds.of_release {idx : NodeIdx} {slot : UInt32}
    (holds : (layout.release child).Holds root uses idx slot) :
    layout.Holds root (child :: uses) idx slot := by
  obtain ⟨found, needed⟩ := holds
  rw [release_eq] at found
  exact ⟨found, needed.imp_left (List.mem_cons_of_mem _)⟩

/-- What is needed after several uses was needed before them. -/
theorem Holds.of_foldl_release {children : List NodeIdx} {layout : Layout K} {idx : NodeIdx}
    {slot : UInt32} (holds : (children.foldl release layout).Holds root uses idx slot) :
    layout.Holds root (children ++ uses) idx slot := by
  induction children generalizing layout with
  | nil => exact holds
  | cons child rest ih => exact (ih holds).of_release

/-- The last use of an operator's value frees its slot, and no other use frees any. -/
theorem Accounts.freed_eq (accounts : layout.Accounts graph root before (child :: uses))
    (visited : child ∈ before) :
    (child ∈ graph.operatorsOf before ∧ child ∉ uses ∧ ∃ slot,
        layout.Holds root (child :: uses) child slot ∧ layout.freed child = [slot]) ∨
      (child ∈ graph.operatorsOf before → child ∈ uses) ∧ layout.freed child = [] := by
  obtain ⟨operand, found, locates⟩ := accounts.located child visited
  have inside := (Array.getElem?_eq_some_iff.mp found).1
  have bound : child ≤ root := Nat.le_of_lt_succ (Nat.lt_of_lt_of_eq inside accounts.operands_size)
  have pending : layout.pendingUses.getD child 0 - 1 = .ofNat (uses.count child) := by
    rw [Array.getD_eq_getD_getElem?, accounts.pending child bound, Option.getD_some,
      List.count_cons_self, ofNat_succ_sub_one]
  have fits := accounts.uses_le child
  rw [List.count_cons_self] at fits
  have last : UInt32.ofNat (uses.count child) = 0 ↔ child ∉ uses := by
    rw [ofNat_eq_zero_iff, Nat.mod_eq_of_lt (Nat.lt_of_succ_le fits), List.count_eq_zero]
  have operator := locates.isOperator_iff
  unfold freed
  simp only [pending, last, found, Option.join_some, Graph.mem_operatorsOf, visited, true_and]
  by_cases member : child ∈ uses
  · exact Or.inr ⟨fun _ => member, if_neg (not_not.mpr member)⟩
  · rw [if_pos member]
    cases operand with
    | slot slot =>
        exact Or.inl ⟨operator.mpr ⟨slot, rfl⟩, member, slot, ⟨found, Or.inl List.mem_cons_self⟩,
          rfl⟩
    | leaf id | constant index =>
        refine Or.inr ⟨fun isOperator => ?_, rfl⟩
        obtain ⟨slot, absurd⟩ := operator.mp isOperator
        cases absurd

/-- A use of a child keeps the books. -/
theorem Accounts.release (accounts : layout.Accounts graph root before (child :: uses))
    (visited : child ∈ before) (bound : child < root) :
    (layout.release child).Accounts graph root before uses := by
  have le := Nat.le_of_lt bound
  have free := accounts.freed_eq visited
  have earlier : ∀ idx slot, (layout.release child).Holds root uses idx slot →
      layout.Holds root (child :: uses) idx slot := fun _ _ => Holds.of_release
  rw [release_eq] at earlier ⊢
  constructor
  · exact ⟨accounts.operands_size, accounts.located, accounts.leaves⟩
  · exact fun idx => Nat.le_trans List.count_le_count_cons (accounts.uses_le idx)
  · intro idx idxBound
    dsimp only
    rw [Array.getD_eq_getD_getElem?, accounts.pending child le]
    by_cases same : child = idx
    · subst same
      have inside := (Array.getElem?_eq_some_iff.mp (accounts.pending child le)).1
      rw [Array.getElem?_setIfInBounds_self_of_lt inside, Option.getD_some,
        List.count_cons_self, ofNat_succ_sub_one]
    · rw [Array.getElem?_setIfInBounds_ne same, accounts.pending idx idxBound,
        List.count_cons_of_ne same]
  · exact accounts.unused_eq
  · rcases free with ⟨-, -, slot, holds, freed⟩ | ⟨-, nothing⟩
    · rw [freed]
      exact List.nodup_cons.mpr ⟨accounts.held_not_free child slot holds, accounts.free_nodup⟩
    · rw [nothing]
      exact accounts.free_nodup
  · rcases free with ⟨-, -, slot, holds, freed⟩ | ⟨-, nothing⟩
    · rw [freed]
      exact List.forall_mem_cons.mpr ⟨accounts.held_lt child slot holds, accounts.free_lt⟩
    · rw [nothing]
      exact accounts.free_lt
  · intro idx slot holds
    exact accounts.held_lt idx slot (earlier idx slot holds)
  · intro idx slot holds
    have old := accounts.held_not_free idx slot (earlier idx slot holds)
    rcases free with ⟨-, last, freedSlot, freedHolds, freed⟩ | ⟨-, nothing⟩
    · rw [freed, List.singleton_append, List.mem_cons, not_or]
      refine ⟨fun same => ?_, old⟩
      subst same
      -- the freed slot was needed for the child alone, and the child is not needed any more
      cases accounts.held_unique idx child slot (earlier idx slot holds) freedHolds
      exact holds.2.elim last (Nat.ne_of_lt bound)
    · rwa [nothing]
  · intro first second slot firstHolds secondHolds
    exact accounts.held_unique first second slot (earlier first slot firstHolds)
      (earlier second slot secondHolds)
  · have balanced := accounts.balanced
    dsimp only
    rcases free with ⟨operator, last, slot, -, freed⟩ | ⟨kept, nothing⟩
    · have gone : child ∉ graph.awaited root before uses := fun member =>
        (Graph.mem_awaited.mp member).2.elim last (Nat.ne_of_lt bound)
      rw [Graph.awaited_cons_of_last operator, Finset.card_insert_of_notMem gone] at balanced
      rw [freed, List.length_append, List.length_singleton, balanced]
      omega
    · rw [Graph.awaited_cons_of_not_last kept] at balanced
      rw [nothing, List.nil_append, balanced]

/-- The uses of an operator keep the books. -/
theorem Accounts.foldl_release {children : List NodeIdx} {layout : Layout K}
    (accounts : layout.Accounts graph root before (children ++ uses))
    (visited : ∀ child ∈ children, child ∈ before) (bound : ∀ child ∈ children, child < root) :
    (children.foldl Layout.release layout).Accounts graph root before uses := by
  induction children generalizing layout with
  | nil => exact accounts
  | cons child rest ih =>
      exact ih (accounts.release (visited child List.mem_cons_self)
          (bound child List.mem_cons_self))
        (fun later member => visited later (List.mem_cons_of_mem _ member))
        fun later member => bound later (List.mem_cons_of_mem _ member)

end Release

/-! ## Instructions -/

section TakeSlot

variable {layout : Layout K} {graph : Graph K} {root : NodeIdx} {before uses : List NodeIdx}

theorem Accounts.nextSlot_not_mem (accounts : layout.Accounts graph root before uses) :
    layout.nextSlot ∉ layout.freeSlots.tail := by
  have nodup := accounts.free_nodup
  unfold nextSlot
  cases free : layout.freeSlots with
  | nil => exact List.not_mem_nil
  | cons slot rest =>
      rw [free] at nodup
      exact (List.nodup_cons.mp nodup).1

/-- The slot that is handed out holds no value that is needed. -/
theorem Accounts.not_holds_nextSlot (accounts : layout.Accounts graph root before uses)
    (idx : NodeIdx) : ¬ layout.Holds root uses idx layout.nextSlot := by
  intro holds
  have bound := accounts.held_lt idx _ holds
  have occupied := accounts.held_not_free idx _ holds
  unfold nextSlot at bound occupied
  cases free : layout.freeSlots with
  | nil =>
      rw [free, List.headD_nil, accounts.unused_eq] at bound
      exact UInt32.lt_irrefl _ bound
  | cons slot rest =>
      rw [free] at occupied
      exact occupied List.mem_cons_self

/-- Where a word can count one slot more than there are awaited operators, a slot that is
handed out has a number below those to come, and the books count it. -/
structure Takes (layout next : Layout K) (awaited : Nat) : Prop where
  unused_eq : next.unusedSlot = next.slotCount
  slotCount_le : layout.slotCount ≤ next.slotCount
  nextSlot_lt : layout.nextSlot < next.slotCount
  slotCount_eq : next.slotCount.toNat = max layout.slotCount.toNat (1 + awaited)
  balanced : next.slotCount.toNat = layout.freeSlots.tail.length + (1 + awaited)

theorem Accounts.takes (accounts : layout.Accounts graph root before uses)
    (room : 1 + (graph.awaited root before uses).card < 2 ^ 32) :
    layout.Takes layout.takeSlot (graph.awaited root before uses).card := by
  have balanced := accounts.balanced
  have unused := accounts.unused_eq
  cases free : layout.freeSlots with
  | nil =>
      rw [free, List.length_nil, Nat.zero_add] at balanced
      have next : layout.nextSlot = layout.slotCount := by rw [nextSlot, free, ← unused]; rfl
      have taken : (layout.slotCount + 1).toNat = layout.slotCount.toNat + 1 := by
        rw [UInt32.toNat_add]
        exact Nat.mod_eq_of_lt (by rw [balanced, Nat.add_comm]; exact room)
      have grown : max layout.slotCount (layout.slotCount + 1) = layout.slotCount + 1 := by
        rw [← UInt32.toNat_inj, UInt32.toNat_max, taken]
        omega
      rw [takeSlot_eq, next, free, if_pos rfl, unused, grown]
      refine ⟨rfl, ?_, ?_, ?_, ?_⟩
      · rw [UInt32.le_iff_toNat_le, taken]
        omega
      · rw [next, UInt32.lt_iff_toNat_lt, taken]
        omega
      · rw [taken]
        omega
      · rw [free, taken, List.tail_nil, List.length_nil]
        omega
  | cons slot rest =>
      rw [free, List.length_cons] at balanced
      have next : layout.nextSlot = slot := by rw [nextSlot, free]; rfl
      have lower : slot < layout.slotCount := accounts.free_lt slot (free ▸ List.mem_cons_self)
      have grown : max layout.slotCount (slot + 1) = layout.slotCount := by
        rw [UInt32.lt_iff_toNat_lt] at lower
        have bound := layout.slotCount.toNat_lt
        rw [← UInt32.toNat_inj, UInt32.toNat_max, UInt32.toNat_add]
        have one : (1 : UInt32).toNat = 1 := rfl
        omega
      rw [takeSlot_eq, next, free, if_neg (List.cons_ne_nil slot rest), grown]
      refine ⟨unused, UInt32.le_refl _, next ▸ lower, ?_, ?_⟩
      · dsimp only
        omega
      · rw [free, List.tail_cons]
        dsimp only
        omega

end TakeSlot

section Emitted

variable {layout : Layout K} {graph : Graph K} {root idx : NodeIdx} {before uses : List NodeIdx}
  {op : Operator K} {args : List Operand}

/-- What is needed after the value of a node has been put into a slot: the value
itself, and what was needed before. -/
theorem Holds.of_place {slot held : UInt32} {query : NodeIdx}
    (holds : (layout.place idx (.slot slot)).Holds root uses query held) :
    query = idx ∧ held = slot ∨ query ≠ idx ∧ layout.Holds root uses query held := by
  obtain ⟨found, needed⟩ := holds
  unfold place at found
  by_cases same : query = idx
  · subst same
    rw [Array.getElem?_setIfInBounds] at found
    split at found
    · split at found
      · cases found
        exact Or.inl ⟨rfl, rfl⟩
      · cases found
    · exact absurd rfl ‹_›
  · rw [Array.getElem?_setIfInBounds_ne (Ne.symm same)] at found
    exact Or.inr ⟨same, found, needed⟩

/-- What is needed after an instruction has been emitted. -/
theorem Holds.of_emitted {query : NodeIdx} {held : UInt32}
    (holds : (layout.emitted idx op args).Holds root uses query held) :
    query = idx ∧ held = layout.nextSlot ∨ query ≠ idx ∧ layout.Holds root uses query held := by
  refine holds.of_place.imp_right fun ⟨other, found, needed⟩ => ⟨other, ?_, needed⟩
  rwa [takeSlot_eq] at found

/-- An instruction keeps the books, its uses not counted. -/
theorem Accounts.emitted (accounts : layout.Accounts graph root before uses)
    (charts : (layout.emitted idx op args).Charts graph root (before ++ [idx]))
    (operator : graph.isOperator idx = true) (fresh : idx ∉ before)
    (needed : idx ∈ uses ∨ idx = root)
    (room : 1 + (graph.awaited root before uses).card < 2 ^ 32) :
    (layout.emitted idx op args).Accounts graph root (before ++ [idx]) uses := by
  have takes := accounts.takes room
  have either : ∀ query slot, (layout.emitted idx op args).Holds root uses query slot →
      query = idx ∧ slot = layout.nextSlot ∨ query ≠ idx ∧ layout.Holds root uses query slot :=
    fun _ _ => Holds.of_emitted
  rw [emitted_eq] at either charts ⊢
  constructor
  · exact charts
  · exact accounts.uses_le
  · exact accounts.pending
  · exact takes.unused_eq
  · exact accounts.free_nodup.sublist (List.tail_sublist _)
  · intro slot member
    exact UInt32.lt_of_lt_of_le (accounts.free_lt slot (List.mem_of_mem_tail member))
      takes.slotCount_le
  · intro query slot holds
    rcases either query slot holds with ⟨-, rfl⟩ | ⟨-, old⟩
    · exact takes.nextSlot_lt
    · exact UInt32.lt_of_lt_of_le (accounts.held_lt query slot old) takes.slotCount_le
  · intro query slot holds
    rcases either query slot holds with ⟨-, rfl⟩ | ⟨-, old⟩
    · exact accounts.nextSlot_not_mem
    · exact fun member => accounts.held_not_free query slot old (List.mem_of_mem_tail member)
  · intro first second slot firstHolds secondHolds
    -- the slot that is handed out holds the new value alone
    rcases either first slot firstHolds with ⟨rfl, rfl⟩ | ⟨-, firstOld⟩
    · rcases either second _ secondHolds with ⟨rfl, -⟩ | ⟨-, secondOld⟩
      · rfl
      · exact absurd secondOld (accounts.not_holds_nextSlot second)
    · rcases either second slot secondHolds with ⟨-, rfl⟩ | ⟨-, secondOld⟩
      · exact absurd firstOld (accounts.not_holds_nextSlot first)
      · exact accounts.held_unique first second slot firstOld secondOld
  · have absent : idx ∉ graph.awaited root before uses := fun member =>
      fresh (Graph.mem_operatorsOf.mp (Graph.mem_awaited.mp member).1).1
    rw [Graph.awaited_concat_operator operator needed, Finset.card_insert_of_notMem absent,
      Nat.add_comm _ 1]
    exact takes.balanced

end Emitted

/-- How the visit of an operator changes a layout. -/
structure Emits (layout next : Layout K) (root : NodeIdx) (uses remaining : List NodeIdx)
    (instruction : Instruction K) : Prop where
  instructions : next.instructions = layout.instructions.push instruction
  constants : next.constants = layout.constants
  /-- Slots are handed out and never withdrawn. -/
  slotCount_le : layout.slotCount ≤ next.slotCount
  /-- The destination has been handed out. -/
  destination_lt : instruction.destination < next.slotCount
  /-- The destination holds nothing that the instruction or a later one needs. -/
  destination_free : ∀ idx, ¬ layout.Holds root uses idx instruction.destination
  /-- Afterwards the result is needed, and what was needed before. -/
  held : ∀ idx slot, next.Holds root remaining idx slot →
    idx = instruction.origin ∧ slot = instruction.destination ∨
      idx ≠ instruction.origin ∧ layout.Holds root uses idx slot

/-- How the visit of a leaf changes a layout. -/
structure Skips (layout next : Layout K) (root : NodeIdx) (uses : List NodeIdx) : Prop where
  instructions : next.instructions = layout.instructions
  /-- The constants met before keep their places. -/
  constants : layout.KeepsConstants next.constants
  slotCount : next.slotCount = layout.slotCount
  /-- What is needed was needed before. -/
  held : ∀ idx slot, next.Holds root uses idx slot → layout.Holds root uses idx slot

/-- What the visit of a node does to a layout: an operator emits an instruction,
a leaf is skipped. -/
inductive Advances (layout next : Layout K) (graph : Graph K) (root idx : NodeIdx)
    (before after : List NodeIdx) : Prop where
  | operator {op : Operator K} {children : List NodeIdx} {args : List Operand}
      (known : graph.kind? idx = some (.operator op children))
      (read : children.mapM (visited layout.operands) = .ok args)
      (earlier : ∀ child ∈ children, child ∈ before)
      (uses : graph.usesOf (idx :: after) = children ++ graph.usesOf after)
      (emits : layout.Emits next root (children ++ graph.usesOf after) (graph.usesOf after)
        ⟨op, args, layout.nextSlot, idx⟩)
      (slotCount_eq : next.slotCount.toNat = max layout.slotCount.toNat
        (1 + (graph.awaited root before (graph.usesOf (idx :: after))).card))
  | leaf (known : ∀ op children, graph.kind? idx ≠ some (.operator op children))
      (uses : graph.usesOf (idx :: after) = graph.usesOf after)
      (skips : layout.Skips next root (graph.usesOf after))

section Visit

variable {layout next : Layout K} {graph : Graph K} {root idx : NodeIdx}
  {order before after uses : List NodeIdx}

/-- Placing an operand that is no slot keeps the books. -/
theorem Accounts.place_leaf (accounts : layout.Accounts graph root before uses)
    (charts : next.Charts graph root (before ++ [idx]))
    (constants : layout.KeepsConstants next.constants)
    (leaf : graph.isOperator idx = false) {operand : Operand}
    (noSlot : ∀ slot, operand ≠ .slot slot)
    (placed : next.operands = layout.operands.setIfInBounds idx (some operand))
    (skips : next.instructions = layout.instructions ∧ next.pendingUses = layout.pendingUses ∧
      next.freeSlots = layout.freeSlots ∧ next.unusedSlot = layout.unusedSlot ∧
      next.slotCount = layout.slotCount) :
    next.Accounts graph root (before ++ [idx]) uses ∧ layout.Skips next root uses := by
  obtain ⟨instructions, pendingUses, freeSlots, unusedSlot, slotCount⟩ := skips
  have earlier : ∀ query slot, next.Holds root uses query slot →
      layout.Holds root uses query slot := by
    intro query slot ⟨found, needed⟩
    refine ⟨?_, needed⟩
    rw [placed, Array.getElem?_setIfInBounds] at found
    split at found
    · split at found
      · cases found
        exact absurd rfl (noSlot slot)
      · cases found
    · exact found
  refine ⟨?_, instructions, constants, slotCount, earlier⟩
  constructor
  · exact charts
  · exact accounts.uses_le
  · rw [pendingUses]
    exact accounts.pending
  · rw [unusedSlot, slotCount]
    exact accounts.unused_eq
  · rw [freeSlots]
    exact accounts.free_nodup
  · rw [freeSlots, slotCount]
    exact accounts.free_lt
  · rw [slotCount]
    exact fun query slot holds => accounts.held_lt query slot (earlier query slot holds)
  · rw [freeSlots]
    exact fun query slot holds => accounts.held_not_free query slot (earlier query slot holds)
  · exact fun first second slot firstHolds secondHolds =>
      accounts.held_unique first second slot (earlier first slot firstHolds)
        (earlier second slot secondHolds)
  · rw [slotCount, freeSlots, Graph.awaited_concat_leaf leaf]
    exact accounts.balanced

variable (accounts : layout.Accounts graph root before (graph.usesOf (idx :: after)))
  (wellFormed : graph.WellFormed) (valid : graph.EvaluationOrder root order)
  (split : order = before ++ idx :: after)

include accounts wellFormed valid split

/-- The visit of an operator emits one instruction and keeps the books, if there is room for
the values that it finds in use. -/
theorem Accounts.visit_operator {op : Operator K} {children : List NodeIdx} {args : List Operand}
    (known : graph.kind? idx = some (.operator op children))
    (read : children.mapM (visited layout.operands) = .ok args)
    (charts : (children.foldl Layout.release (layout.emitted idx op args)).Charts graph root
      (before ++ [idx]))
    (room : 1 + (graph.awaited root before (graph.usesOf (idx :: after))).card < 2 ^ 32) :
    (children.foldl Layout.release (layout.emitted idx op args)).Accounts graph root
        (before ++ [idx]) (graph.usesOf after) ∧
      layout.Advances (children.foldl Layout.release (layout.emitted idx op args)) graph root idx
        before after := by
  obtain ⟨placed, instructions, constants, slotCount, -⟩ :=
    foldl_release_emitted layout idx op args children
  have childrenAt : graph.childrenAt idx = children := Graph.childrenAt_eq_of_kind? known
  have uses : graph.usesOf (idx :: after) = children ++ graph.usesOf after := by
    rw [graph.usesOf_cons, childrenAt]
  have bound := (valid.reaches split).le wellFormed
  have lower : ∀ child ∈ children, child < idx := fun child member =>
    wellFormed.lt_of_mem_childrenAt (childrenAt.symm ▸ member)
  have earlier : ∀ child ∈ children, child ∈ before := fun child member =>
    valid.mem_before split ((valid.reaches split).tail
      (Graph.mem_childrenAt_iff.mp (childrenAt.symm ▸ member))) (lower child member)
  have needed : idx ∈ graph.usesOf (idx :: after) ∨ idx = root :=
    (Graph.mem_usesOf_or_eq_root wellFormed valid split).imp_left fun member =>
      uses ▸ List.mem_append_right _ member
  have takes := accounts.takes room
  have emittedCharts : (layout.emitted idx op args).Charts graph root (before ++ [idx]) :=
    charts.congr (by rw [placed, emitted_eq]) (by rw [instructions, emitted_eq])
      (by rw [constants, emitted_eq])
  have emitted := accounts.emitted emittedCharts (Graph.isOperator_iff.mpr ⟨op, children, known⟩)
    (valid.not_mem_before split) needed room
  rw [uses] at emitted
  refine ⟨emitted.foldl_release (fun child member => List.mem_append_left _ (earlier child member))
    fun child member => Nat.lt_of_lt_of_le (lower child member) bound,
    .operator known read earlier uses ⟨instructions, constants, ?_, ?_, ?_, ?_⟩ ?_⟩
  · exact slotCount ▸ takes.slotCount_le
  · exact slotCount ▸ takes.nextSlot_lt
  · exact uses ▸ accounts.not_holds_nextSlot
  · intro query slot holds
    exact uses ▸ holds.of_foldl_release.of_emitted
  · rw [slotCount]
    exact takes.slotCount_eq

/-- Every visit succeeds and keeps the books, if there is room for the values that it finds
in use. -/
theorem Accounts.visit (inside : root < graph.size)
    (room : graph.isOperator idx = true →
      1 + (graph.awaited root before (graph.usesOf (idx :: after))).card < 2 ^ 32) :
    ∃ next, layout.visit graph idx = .ok next ∧ layout.Visits graph idx next ∧
      next.Accounts graph root (before ++ [idx]) (graph.usesOf after) ∧
      layout.Advances next graph root idx before after := by
  obtain ⟨next, visit, visits, charts⟩ := accounts.exists_visits wellFormed inside valid split
  refine ⟨next, visit, visits, ?_⟩
  have constants := visits.keepsConstants
  have unread (known : ∀ op children, graph.kind? idx ≠ some (.operator op children)) :
      graph.isOperator idx = false ∧ graph.usesOf (idx :: after) = graph.usesOf after := by
    have leaf : graph.isOperator idx = false := Bool.eq_false_iff.mpr fun operator => by
      obtain ⟨op, children, operator⟩ := Graph.isOperator_iff.mp operator
      exact known op children operator
    have none : graph.childrenAt idx = [] := List.eq_nil_iff_forall_not_mem.mpr fun child member =>
      Bool.false_ne_true (leaf.symm.trans (Graph.isOperator_of_mem_childrenAt member))
    exact ⟨leaf, by rw [graph.usesOf_cons, none, List.nil_append]⟩
  cases visits with
  | @leaf id known =>
      have noOperator : ∀ op children, graph.kind? idx ≠ some (.operator op children) := by
        rw [known]
        exact nofun
      obtain ⟨leaf, uses⟩ := unread noOperator
      obtain ⟨kept, skips⟩ := accounts.place_leaf charts constants leaf
        (nofun : ∀ slot, Operand.leaf id ≠ .slot slot) rfl ⟨rfl, rfl, rfl, rfl, rfl⟩
      exact ⟨uses ▸ kept, .leaf noOperator uses (uses ▸ skips)⟩
  | constant known =>
      have noOperator : ∀ op children, graph.kind? idx ≠ some (.operator op children) := by
        rw [known]
        exact nofun
      obtain ⟨leaf, uses⟩ := unread noOperator
      obtain ⟨kept, skips⟩ := accounts.place_leaf charts constants leaf
        (nofun : ∀ slot, Operand.constant layout.constants.size ≠ .slot slot) rfl
        ⟨rfl, rfl, rfl, rfl, rfl⟩
      exact ⟨uses ▸ kept, .leaf noOperator uses (uses ▸ skips)⟩
  | operator known read =>
      exact accounts.visit_operator wellFormed valid split known read charts
        (room (Graph.isOperator_iff.mpr ⟨_, _, known⟩))

end Visit

/-- Laying out the rest of an order succeeds, keeps the books, and never
withdraws a slot or moves a constant. -/
theorem Accounts.visits {graph : Graph K} {root : NodeIdx} {order : List NodeIdx}
    (wellFormed : graph.WellFormed) (inside : root < graph.size)
    (valid : graph.EvaluationOrder root order) (peak : graph.peakOf order < 2 ^ 32)
    {layout : Layout K} {before after : List NodeIdx} (split : order = before ++ after)
    (accounts : layout.Accounts graph root before (graph.usesOf after)) :
    ∃ final, after.foldlM (Layout.visit graph) layout = .ok final ∧
      final.Accounts graph root order [] ∧ layout.slotCount ≤ final.slotCount ∧
      layout.KeepsConstants final.constants := by
  induction after generalizing before layout with
  | nil =>
      rw [List.append_nil] at split
      exact ⟨layout, rfl, split ▸ accounts, UInt32.le_refl _, fun _ _ found => found⟩
  | cons idx after ih =>
      obtain ⟨next, visits, -, kept, changes⟩ := accounts.visit wellFormed valid split inside
        (Graph.room_of_peak_lt wellFormed valid split peak)
      obtain ⟨final, finished, books, slots, constants⟩ :=
        ih (by simp [split]) kept
      refine ⟨final, by rw [List.foldlM_cons, visits]; exact finished, books, ?_, ?_⟩
      · cases changes with
        | operator _ _ _ _ emits => exact UInt32.le_trans emits.slotCount_le slots
        | leaf _ _ skips => exact skips.slotCount ▸ slots
      · intro index entry found
        refine constants index entry ?_
        cases changes with
        | operator _ _ _ _ emits =>
            rw [emits.constants]
            exact found
        | leaf _ _ skips => exact skips.constants index entry found

/-! ## The first layout -/

section Start

variable {graph : Graph K} {root : NodeIdx} {order : List NodeIdx} {counts : Array UInt32}

/-- The books are balanced before the first visit, if words can count the uses. -/
theorem accounts_start (fits : ∀ idx, (graph.usesOf order).count idx ≤ 2 ^ 32)
    (counted : ∀ idx, idx < root + 1 →
      counts[idx]? = some (.ofNat ((graph.usesOf order).count idx)))
    (variableCount : Nat) :
    (start root counts variableCount).Accounts graph root [] (graph.usesOf order) := by
  have nothing : ∀ idx slot, ¬ (start root counts variableCount : Layout K).Holds root
      (graph.usesOf order) idx slot := by
    rintro idx slot ⟨found, -⟩
    simp only [start, Array.getElem?_replicate] at found
    split at found <;> cases found
  constructor
  · exact charts_start graph root counts variableCount
  · exact fits
  · exact fun idx bound => counted idx (Nat.lt_succ_of_le bound)
  · rfl
  · exact List.nodup_nil
  · exact nofun
  · exact fun idx slot holds => absurd holds (nothing idx slot)
  · exact fun idx slot holds => absurd holds (nothing idx slot)
  · exact fun first second slot holds => absurd holds (nothing first slot)
  · rfl

end Start

end Layout

end MixedInteger
