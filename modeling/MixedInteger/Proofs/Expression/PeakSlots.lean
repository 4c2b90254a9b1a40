import MixedInteger.Proofs.Expression.Compilation

/-! # The number of slots

A tape has one instruction for each operator of its subtree (`Layout.Lists`). Where words suffice,
it has as many slots as there are values to be kept at once where the most are
(`Graph.compile_slots`): the slots handed out are the free ones and those of the operators that
are still awaited, so a new slot is taken exactly where more values are kept than ever before.
-/

namespace MixedInteger

variable {K : Type}

/-- Whether an instruction computes an operator of a graph, when the values of the
nodes are at certain places. -/
def Instruction.Computes (instruction : Instruction K) (graph : Graph K)
    (location : NodeIdx → Operand) : Prop :=
  ∃ children, graph.kind? instruction.origin = some (.operator instruction.operator children) ∧
    instruction.args = children.map location ∧
    location instruction.origin = .slot instruction.destination

/-- An instruction computes its operator wherever its result and its arguments are found alike. -/
theorem Instruction.Computes.congr {instruction : Instruction K} {graph : Graph K}
    {location moved : NodeIdx → Operand} (computes : instruction.Computes graph location)
    (result : moved instruction.origin = location instruction.origin)
    (args : ∀ child ∈ graph.childrenAt instruction.origin, moved child = location child) :
    instruction.Computes graph moved := by
  obtain ⟨children, known, read, written⟩ := computes
  refine ⟨children, known, read.trans ?_, result.trans written⟩
  rw [Graph.childrenAt_eq_of_kind? known] at args
  exact List.map_congr_left fun child member => (args child member).symm

namespace Layout

variable {layout next : Layout K} {graph : Graph K} {root idx child : NodeIdx}
  {before after uses order : List NodeIdx}

/-- Where the value of a visited node is found. -/
def location (layout : Layout K) (idx : NodeIdx) : Operand :=
  (layout.operands[idx]?.join).getD (.slot 0)

theorem location_eq {operand : Operand} (found : layout.operands[idx]? = some (some operand)) :
    layout.location idx = operand := by
  rw [location, found, Option.join_some, Option.getD_some]

/-- The operands read for children say where they are found. -/
theorem eq_map_location {children : List NodeIdx} {args : List Operand}
    (read : children.mapM (visited layout.operands) = .ok args) :
    args = children.map layout.location := by
  refine Outcome.eq_map_of_mapM_eq_ok (fun child _ operand found => ?_) read
  exact (location_eq (visited_eq_ok_iff.mp found)).symm

/-- Placing a node leaves the others where they are. -/
theorem location_of_placed {operand : Operand}
    (placed : next.operands = layout.operands.setIfInBounds idx (some operand))
    (lower : child < idx) : next.location child = layout.location child := by
  unfold location
  rw [placed, Array.getElem?_setIfInBounds_ne (Nat.ne_of_gt lower)]

/-- What a layout has listed when a part of the order has been visited: one instruction for each
operator, which reads where the children are found, and a number above every variable. -/
structure Lists (layout : Layout K) (graph : Graph K) (root : NodeIdx) (requested : Nat)
    (before : List NodeIdx) : Prop extends layout.Charts graph root before where
  variableCount_eq : layout.variableCount =
    max requested ((graph.variablesOf before).toFinset.sup (· + 1))
  origins : layout.instructions.toList.map Instruction.origin = graph.operatorsOf before
  computes : ∀ instruction ∈ layout.instructions.toList,
    instruction.Computes graph layout.location

section Listing

variable {requested : Nat}

/-- Instructions come from visited operators. -/
theorem Lists.origin_mem (lists : layout.Lists graph root requested before)
    {instruction : Instruction K} (emitted : instruction ∈ layout.instructions.toList) :
    instruction.origin ∈ before := by
  refine (Graph.mem_operatorsOf.mp (?_ : instruction.origin ∈ graph.operatorsOf before)).1
  rw [← lists.origins]
  exact List.mem_map_of_mem emitted

/-- Instructions that were emitted are right wherever nodes are found later. -/
theorem Lists.computes_moved (lists : layout.Lists graph root requested before)
    (wellFormed : graph.WellFormed) (lower : ∀ query ∈ before, query < idx)
    {operand : Operand}
    (placed : next.operands = layout.operands.setIfInBounds idx (some operand)) :
    ∀ instruction ∈ layout.instructions.toList, instruction.Computes graph next.location := by
  intro instruction emitted
  have bound := lower _ (lists.origin_mem emitted)
  refine (lists.computes instruction emitted).congr (location_of_placed placed bound)
    fun child member => location_of_placed placed ?_
  exact Nat.lt_trans (wellFormed.lt_of_mem_childrenAt member) bound

/-- A visit counts in the variable of its node. -/
theorem Lists.variableCount_concat (lists : layout.Lists graph root requested before)
    (idx : NodeIdx) :
    max layout.variableCount ((graph.variablesOf [idx]).toFinset.sup (· + 1)) =
      max requested ((graph.variablesOf (before ++ [idx])).toFinset.sup (· + 1)) := by
  have appended : graph.variablesOf (before ++ [idx]) =
      graph.variablesOf before ++ graph.variablesOf [idx] := List.filterMap_append
  rw [lists.variableCount_eq, appended, List.toFinset_append, Finset.sup_union]
  exact sup_assoc _ _ _

/-- The instruction of an operator reads where the children are found, and is found where it
writes. -/
theorem Charts.computes_operator (charts : layout.Charts graph root before)
    (wellFormed : graph.WellFormed) (bound : idx ≤ root) {op : Operator K}
    {children : List NodeIdx} {args : List Operand}
    (known : graph.kind? idx = some (.operator op children))
    (read : children.mapM (visited layout.operands) = .ok args) :
    (⟨op, args, layout.nextSlot, idx⟩ : Instruction K).Computes graph
      (children.foldl release (layout.emitted idx op args)).location := by
  obtain ⟨placed, -⟩ := foldl_release_emitted layout idx op args children
  have room : idx < layout.operands.size := charts.operands_size ▸ Nat.lt_succ_of_le bound
  refine ⟨children, known, (eq_map_location read).trans ?_, ?_⟩
  · refine List.map_congr_left fun child member => (location_of_placed placed ?_).symm
    exact wellFormed.lt_of_mem_childrenAt (Graph.childrenAt_eq_of_kind? known ▸ member)
  · exact location_eq (placed ▸ Array.getElem?_setIfInBounds_self_of_lt room)

/-- Every visit lists its node. -/
theorem Lists.visits (lists : layout.Lists graph root requested before)
    (wellFormed : graph.WellFormed) (bound : idx ≤ root) (lower : ∀ query ∈ before, query < idx)
    (visits : layout.Visits graph idx next) (charts : next.Charts graph root (before ++ [idx])) :
    next.Lists graph root requested (before ++ [idx]) := by
  have skipped (leaf : graph.isOperator idx = false) :
      graph.operatorsOf (before ++ [idx]) = graph.operatorsOf before := by
    rw [Graph.operatorsOf_concat, leaf, if_neg Bool.false_ne_true, List.append_nil]
  have counted := lists.variableCount_concat idx
  cases visits with
  | @leaf id known =>
      have leaf : graph.isOperator idx = false := by rw [Graph.isOperator, known]; rfl
      rw [Graph.variablesOf_singleton known] at counted
      exact ⟨charts, counted, lists.origins.trans (skipped leaf).symm,
        lists.computes_moved wellFormed lower rfl⟩
  | constant known =>
      have leaf : graph.isOperator idx = false := by rw [Graph.isOperator, known]; rfl
      rw [Graph.variablesOf_singleton known] at counted
      exact ⟨charts, (Nat.max_zero _).symm.trans counted,
        lists.origins.trans (skipped leaf).symm, lists.computes_moved wellFormed lower rfl⟩
  | @operator op children args known read =>
      obtain ⟨placed, instructions, -, -, variableCount⟩ :=
        foldl_release_emitted layout idx op args children
      rw [Graph.variablesOf_singleton known] at counted
      refine ⟨charts, ?_, ?_, ?_⟩
      · exact variableCount.trans ((Nat.max_zero _).symm.trans counted)
      · rw [instructions, Array.toList_push, List.map_append, lists.origins,
          Graph.operatorsOf_concat, Graph.isOperator_iff.mpr ⟨op, children, known⟩, if_pos rfl]
        rfl
      · rw [instructions, Array.toList_push]
        refine List.forall_mem_append.mpr ⟨lists.computes_moved wellFormed lower placed,
          List.forall_mem_singleton.mpr ?_⟩
        exact lists.toCharts.computes_operator wellFormed bound known read

/-- Laying out a whole order lists it. -/
theorem exists_lists (wellFormed : graph.WellFormed) (inside : root < graph.size)
    (valid : graph.EvaluationOrder root order) (counts : Array UInt32) (requested : Nat) :
    ∃ final, order.foldlM (Layout.visit graph) (start root counts requested) = .ok final ∧
      final.Lists graph root requested order := by
  let listed (before : List NodeIdx) (layout : Layout K) : Prop :=
    layout.Lists graph root requested before
  have initially : listed [] (start root counts requested) :=
    ⟨charts_start graph root counts requested, (Nat.max_zero _).symm, rfl, nofun⟩
  exact Outcome.exists_foldlM_eq_ok initially
    fun before idx after layout split (lists : layout.Lists graph root requested before) => by
      obtain ⟨next, visit, visits, charts⟩ :=
        lists.exists_visits wellFormed inside valid split
      exact ⟨next, visit, lists.visits wellFormed ((valid.reaches split).le wellFormed)
        (fun _ => valid.before_lt split) visits charts⟩

end Listing

/-- What the slots of a layout are when a part of the order has been visited. -/
structure Packed (layout : Layout K) (graph : Graph K) (root : NodeIdx) (requested : Nat)
    (order before after : List NodeIdx) : Prop
    extends layout.Lists graph root requested before where
  accounts : layout.Accounts graph root before (graph.usesOf after)
  /-- As many slots have been handed out as values were kept where the most were. -/
  slotCount_eq : layout.slotCount.toNat =
    (graph.operatorsOf before).toFinset.sup fun idx => 1 + (graph.liveAt order idx).card
  /-- A slot is written again only when its value has expired. -/
  expired : layout.instructions.toList.Pairwise fun old new =>
    old.destination = new.destination → graph.Expired root order old.origin new.origin

section Packing

variable {requested : Nat}

/-- A slot that is free to be written holds no value that is needed. -/
theorem Packed.expired_nextSlot
    (packed : layout.Packed graph root requested order before (idx :: after))
    (valid : graph.EvaluationOrder root order) (split : order = before ++ idx :: after)
    {old : Instruction K} (emitted : old ∈ layout.instructions.toList)
    (same : old.destination = layout.nextSlot) : graph.Expired root order old.origin idx := by
  obtain ⟨children, known, -, written⟩ := packed.computes old emitted
  obtain ⟨operand, found, -⟩ := packed.located _ (packed.origin_mem emitted)
  rw [← location_eq found, written, same] at found
  have spare := packed.accounts.not_holds_nextSlot old.origin
  refine ⟨fun root => spare ⟨found, Or.inr root⟩, fun reader member due child => ?_⟩
  exact spare ⟨found, Or.inl (List.mem_flatMap.mpr
    ⟨reader, (valid.mem_due_iff split).mpr ⟨member, due⟩, child⟩)⟩

/-- Every visit succeeds and keeps what is said of the slots. -/
theorem Packed.visit
    (packed : layout.Packed graph root requested order before (idx :: after))
    (wellFormed : graph.WellFormed) (inside : root < graph.size)
    (valid : graph.EvaluationOrder root order) (peak : graph.peakOf order < 2 ^ 32)
    (split : order = before ++ idx :: after) :
    ∃ next, layout.visit graph idx = .ok next ∧
      next.Packed graph root requested order (before ++ [idx]) after := by
  obtain ⟨next, visit, visits, kept, advances⟩ := packed.accounts.visit wellFormed valid split
    inside (Graph.room_of_peak_lt wellFormed valid split peak)
  have lists := packed.toLists.visits wellFormed ((valid.reaches split).le wellFormed)
    (fun _ => valid.before_lt split) visits kept.toCharts
  refine ⟨next, visit, lists, kept, ?_, ?_⟩
  · cases advances with
    | @operator op children _ known _ _ _ _ slotCount =>
        rw [slotCount, packed.slotCount_eq, Graph.operatorsOf_concat,
          Graph.isOperator_iff.mpr ⟨op, children, known⟩, if_pos rfl,
          Graph.awaited_eq_liveAt wellFormed valid split, List.toFinset_append, Finset.sup_union,
          List.toFinset_cons, List.toFinset_nil, insert_empty_eq, Finset.sup_singleton]
    | leaf known _ skips =>
        have leaf : graph.isOperator idx = false := Bool.eq_false_iff.mpr fun operator => by
          obtain ⟨op, children, operator⟩ := Graph.isOperator_iff.mp operator
          exact known op children operator
        rw [skips.slotCount, packed.slotCount_eq, Graph.operatorsOf_concat, leaf,
          if_neg Bool.false_ne_true, List.append_nil]
  · cases advances with
    | operator _ _ _ _ emits _ =>
        rw [emits.instructions, Array.toList_push]
        refine List.pairwise_append.mpr ⟨packed.expired, List.pairwise_singleton _ _, ?_⟩
        intro old emitted new appended same
        cases List.mem_singleton.mp appended
        exact packed.expired_nextSlot valid split emitted same
    | leaf _ _ skips =>
        rw [skips.instructions]
        exact packed.expired

/-- Laying out a whole order packs its values, where words suffice. -/
theorem exists_packed (wellFormed : graph.WellFormed) (inside : root < graph.size)
    (valid : graph.EvaluationOrder root order) (peak : graph.peakOf order < 2 ^ 32)
    (fits : ∀ idx, (graph.usesOf order).count idx ≤ 2 ^ 32) {counts : Array UInt32}
    (counted : ∀ idx, idx < root + 1 →
      counts[idx]? = some (.ofNat ((graph.usesOf order).count idx))) (requested : Nat) :
    ∃ final, order.foldlM (Layout.visit graph) (start root counts requested) = .ok final ∧
      final.Packed graph root requested order order [] := by
  let invariant (before : List NodeIdx) (layout : Layout K) : Prop :=
    ∀ after, order = before ++ after → layout.Packed graph root requested order before after
  have initially : invariant [] (start root counts requested) := fun after split => by
    cases split
    exact ⟨⟨charts_start graph root counts requested, (Nat.max_zero _).symm, rfl, nofun⟩,
      accounts_start fits counted requested, rfl, .nil⟩
  obtain ⟨final, finished, holds⟩ := Outcome.exists_foldlM_eq_ok initially
    fun before idx after layout split holds => by
      obtain ⟨next, visit, kept⟩ := (holds _ split).visit wellFormed inside valid peak split
      refine ⟨next, visit, fun rest same => ?_⟩
      rw [split, List.append_assoc, List.append_cancel_left_eq] at same
      cases same
      exact kept
  exact ⟨final, finished, holds [] (List.append_nil order).symm⟩

end Packing

end Layout

namespace Graph

open Layout

variable {graph : Graph K} {root : NodeIdx}

/-- **A tape has as many slots as values are kept at once.** A root of a built graph compiles
to one instruction for each operator below it, in ascending order, each reading the places where
the children are found. The number of variables is the one asked for, or the least above every
variable below the root if that is larger. If no node is a child more than `2 ^ 32` times below
the root and fewer than `2 ^ 32` values are kept at once, the number of slots is the largest
number of values that an operator finds in use, its own included: those of the operators before
it that it or a later one reads. No instruction then writes to a slot whose value is still
needed, by the instruction itself, by a later one or as the result. -/
theorem compile_slots (built : graph.Built) (inside : root < graph.size) (requested : Nat) :
    ∃ order tape location, graph.subtree root = .ok order ∧ graph.EvaluationOrder root order ∧
      graph.compile root requested = .ok tape ∧
      tape.instructions.toList.map Instruction.origin = graph.operatorsOf order ∧
      (∀ instruction ∈ tape.instructions.toList, instruction.Computes graph location) ∧
      tape.root = location root ∧
      tape.variableCount = max requested ((graph.variablesOf order).toFinset.sup (· + 1)) ∧
      (graph.FitsWords root → tape.slotCount = graph.peakOf order ∧
        tape.instructions.toList.Pairwise fun old new => old.destination = new.destination →
          graph.Expired root order old.origin new.origin) := by
  have wellFormed := built.wellFormed
  obtain ⟨order, found, valid⟩ := subtree_spec wellFormed inside
  obtain ⟨counts, counted, uses⟩ := countUses_spec wellFormed inside valid
  obtain ⟨final, visits, lists⟩ := exists_lists wellFormed inside valid counts requested
  obtain ⟨operand, rootFound, -⟩ := lists.located root valid.root_mem
  refine ⟨order, _, final.location, found, valid, compile_eq_ok found counted visits rootFound,
    lists.origins, lists.computes, (location_eq rootFound).symm, lists.variableCount_eq,
    fun fits => ?_⟩
  obtain ⟨same, again, packed⟩ := exists_packed wellFormed inside valid (fits.peak_lt order found)
    (fits.uses_le order found) uses requested
  cases Except.ok.inj (visits.symm.trans again)
  exact ⟨packed.slotCount_eq, packed.expired⟩

/-- **Beyond words a tape has fewer slots than values are kept.** One use more than a word can
count gives a slot to two values that are both needed. One value more than a word can count
leaves the last one without a slot. -/
theorem slotCount_beyond_words :
    ((overused 4294967297).Built ∧ 4 < (overused 4294967297).size ∧
      (overused 4294967297).EvaluationOrder 4 [0, 1, 2, 3, 4] ∧
      ∃ tape, (overused 4294967297).compile 4 0 = .ok tape ∧
        tape.slotCount < (overused 4294967297).peakOf [0, 1, 2, 3, 4] ∧
        ¬ tape.instructions.toList.Pairwise fun old new => old.destination = new.destination →
          (overused 4294967297).Expired 4 [0, 1, 2, 3, 4] old.origin new.origin) ∧
    (crowded 4294967295).Built ∧ 4294967295 < (crowded 4294967295).size ∧
      (crowded 4294967295).EvaluationOrder 4294967295 (List.range (4294967295 + 1)) ∧
      ∃ tape, (crowded 4294967295).compile 4294967295 0 = .ok tape ∧
        tape.slotCount < (crowded 4294967295).peakOf (List.range (4294967295 + 1)) := by
  have used : 0 < 4294967297 := by decide
  have positive : 0 < 4294967295 := by decide
  have full : 4294967295 + 1 = 2 ^ 32 := by decide
  have fits : 4294967295 < 2 ^ 32 := by decide
  refine ⟨?_, ?_⟩
  · obtain ⟨built, size, known⟩ := built_overused used
    refine ⟨built, size ▸ by decide, evaluationOrder_overused used, _, compile_overused rfl,
      lt_peakOf_overused used, fun packed => ?_⟩
    -- the second constant takes the slot of the first one, which the sum has yet to read
    have overwritten := List.pairwise_iff_getElem.mp packed 2 3 (by decide) (by decide) (by decide)
    refine (overwritten rfl).2 4 (by decide) (by decide) ?_
    rw [childrenAt_eq_of_kind? (known 4 (by decide))]
    exact List.mem_cons_of_mem _ List.mem_cons_self
  · obtain ⟨built, size, -⟩ := built_crowded positive fits
    obtain ⟨tape, compiled, slots, -⟩ := compile_crowded positive full
    exact ⟨built, size ▸ by decide, evaluationOrder_crowded positive fits, tape, compiled,
      lt_of_eq_of_lt slots (lt_peakOf_crowded positive fits)⟩

/-- The shared expression is laid out in as many slots as it keeps values at once. -/
theorem compile_slots_sharedExponential :
    sharedExponential.Built ∧ 3 < sharedExponential.size ∧ sharedExponential.FitsWords 3 ∧
      ∃ order tape location, sharedExponential.subtree 3 = .ok order ∧
        sharedExponential.EvaluationOrder 3 order ∧
        sharedExponential.compile 3 0 = .ok tape ∧
        tape.instructions.toList.map Instruction.origin = sharedExponential.operatorsOf order ∧
        (∀ instruction ∈ tape.instructions.toList,
          instruction.Computes sharedExponential location) ∧
        tape.root = location 3 ∧
        tape.variableCount =
          max 0 ((sharedExponential.variablesOf order).toFinset.sup (· + 1)) ∧
        tape.slotCount = sharedExponential.peakOf order ∧
        tape.instructions.toList.Pairwise fun old new => old.destination = new.destination →
          sharedExponential.Expired 3 order old.origin new.origin := by
  have inside : 3 < sharedExponential.size := by decide
  obtain ⟨order, tape, location, found, valid, compiled, origins, computes, result, numbered,
    packed⟩ := compile_slots built_sharedExponential inside 0
  exact ⟨built_sharedExponential, inside, fitsWords_sharedExponential, order, tape, location, found,
    valid, compiled, origins, computes, result, numbered, packed fitsWords_sharedExponential⟩

/-- The exponential and the double are both kept while the product is computed. -/
example : sharedExponential.peakOf [0, 1, 2, 3] = 3 := by decide

end Graph

end MixedInteger
