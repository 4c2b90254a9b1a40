import MixedInteger.Expression.Tape
import MixedInteger.Proofs.Expression.LiveValues

/-! # Laying out nodes

What the visit of a node leaves (`Layout.Visits`), and what a layout says of the nodes visited
so far (`Layout.Charts`). Neither depends on whether the words suffice in which uses and slots
are counted, so every root of a well-formed graph compiles, to a tape that reads no variables
but those below the root (`Graph.exists_compile`).
-/

namespace MixedInteger

variable {K : Type}

namespace Layout

/-- Whether the value of the node at an index is where an operand says. -/
def Locates (layout : Layout K) (graph : Graph K) (idx : NodeIdx) (operand : Operand) : Prop :=
  match graph.kind? idx with
  | some (.leaf id) => operand = .leaf id
  | some (.constant value) =>
      ∃ index, operand = .constant index ∧ layout.constants[index]? = some (value, idx)
  | some (.operator _ _) => ∃ slot, operand = .slot slot
  | none => False

/-- What a layout says of the nodes visited so far, however uses and slots are counted. -/
structure Charts (layout : Layout K) (graph : Graph K) (root : NodeIdx) (before : List NodeIdx) :
    Prop where
  operands_size : layout.operands.size = root + 1
  /-- The value of every visited node can be found. -/
  located : ∀ idx ∈ before, ∃ operand, layout.operands[idx]? = some (some operand) ∧
    layout.Locates graph idx operand
  /-- An instruction reads the variables of visited leaves alone. -/
  leaves : ∀ instruction ∈ layout.instructions.toList, ∀ id, .leaf id ∈ instruction.args →
    ∃ idx ∈ before, graph.kind? idx = some (.leaf id)

/-- Taking one off a count that has one more takes it off the word too, wrapped or not. -/
theorem ofNat_succ_sub_one (count : Nat) : UInt32.ofNat (count + 1) - 1 = UInt32.ofNat count := by
  rw [UInt32.ofNat_add]
  exact UInt32.add_sub_cancel _ _

/-- A word is at zero for every multiple of its range. -/
theorem ofNat_eq_zero_iff {count : Nat} : UInt32.ofNat count = 0 ↔ count % 2 ^ 32 = 0 := by
  rw [← UInt32.toNat_inj, UInt32.toNat_ofNat']
  rfl

/-- The slots that a use of a child frees: its own, if no use is pending afterwards. -/
def freed (layout : Layout K) (child : NodeIdx) : List UInt32 :=
  if layout.pendingUses.getD child 0 - 1 = 0 then
    match layout.operands[child]?.join with
    | some (.slot slot) => [slot]
    | _ => []
  else []

/-- A use takes one off the count of the child and returns what it frees. -/
theorem release_eq (layout : Layout K) (child : NodeIdx) :
    layout.release child =
      { layout with
        pendingUses :=
          layout.pendingUses.setIfInBounds child (layout.pendingUses.getD child 0 - 1)
        freeSlots := layout.freed child ++ layout.freeSlots } := by
  unfold release freed
  dsimp only
  split
  · cases layout.operands[child]?.join with
    | none => rfl
    | some operand => cases operand <;> rfl
  · rfl

/-- A use of a child has nothing to do with where another node is found. -/
theorem release_place (layout : Layout K) {child idx : NodeIdx} (operand : Operand)
    (other : child ≠ idx) :
    (layout.place idx operand).release child = (layout.release child).place idx operand := by
  have same : (layout.place idx operand).freed child = layout.freed child := by
    unfold freed place
    rw [Array.getElem?_setIfInBounds_ne (Ne.symm other)]
  rw [release_eq, release_eq, same]
  rfl

/-- Recording where another node is found does not interfere with releases. -/
theorem foldl_release_place {idx : NodeIdx} (operand : Operand) {children : List NodeIdx}
    (others : ∀ child ∈ children, child ≠ idx) (layout : Layout K) :
    (children.foldl release layout).place idx operand =
      children.foldl release (layout.place idx operand) := by
  induction children generalizing layout with
  | nil => rfl
  | cons child rest ih =>
      rw [List.foldl_cons, List.foldl_cons, release_place layout operand
        (others child List.mem_cons_self)]
      exact ih (fun later member => others later (List.mem_cons_of_mem _ member)) _

/-- Whatever releases keep of a layout. -/
theorem foldl_release_eq {α : Type} {view : Layout K → α}
    (kept : ∀ layout child, view (release layout child) = view layout)
    (children : List NodeIdx) (layout : Layout K) :
    view (children.foldl release layout) = view layout := by
  induction children generalizing layout with
  | nil => rfl
  | cons child rest ih => exact (ih _).trans (kept layout child)

/-- The layout that an operator leaves before its uses are counted. -/
def emitted (layout : Layout K) (idx : NodeIdx) (op : Operator K) (args : List Operand) :
    Layout K :=
  place
    { layout.takeSlot with
      instructions := layout.instructions.push ⟨op, args, layout.nextSlot, idx⟩ }
    idx (.slot layout.nextSlot)

/-- Handing out a slot uses up a free one, or else a new one. -/
theorem takeSlot_eq (layout : Layout K) :
    layout.takeSlot =
      { layout with
        freeSlots := layout.freeSlots.tail
        unusedSlot :=
          if layout.freeSlots = [] then layout.unusedSlot + 1 else layout.unusedSlot
        slotCount := max layout.slotCount (layout.nextSlot + 1) } := by
  unfold takeSlot
  cases free : layout.freeSlots with
  | nil => simp only [↓reduceIte, List.tail_nil]
  | cons slot rest => simp only [List.tail_cons, reduceCtorEq, ↓reduceIte]

/-- An operator emits one instruction and is found in its slot. -/
theorem emitted_eq (layout : Layout K) (idx : NodeIdx) (op : Operator K) (args : List Operand) :
    layout.emitted idx op args =
      { layout with
        instructions := layout.instructions.push ⟨op, args, layout.nextSlot, idx⟩
        operands := layout.operands.setIfInBounds idx (some (.slot layout.nextSlot))
        freeSlots := layout.freeSlots.tail
        unusedSlot := layout.takeSlot.unusedSlot
        slotCount := layout.takeSlot.slotCount } := by
  unfold emitted place
  rw [takeSlot_eq]

/-- What an operator leaves when its uses have been counted. -/
theorem foldl_release_emitted (layout : Layout K) (idx : NodeIdx) (op : Operator K)
    (args : List Operand) (children : List NodeIdx) :
    (children.foldl release (layout.emitted idx op args)).operands =
        layout.operands.setIfInBounds idx (some (.slot layout.nextSlot)) ∧
      (children.foldl release (layout.emitted idx op args)).instructions =
        layout.instructions.push ⟨op, args, layout.nextSlot, idx⟩ ∧
      (children.foldl release (layout.emitted idx op args)).constants = layout.constants ∧
      (children.foldl release (layout.emitted idx op args)).slotCount =
        layout.takeSlot.slotCount ∧
      (children.foldl release (layout.emitted idx op args)).variableCount =
        layout.variableCount := by
  have kept {α : Type} (view : Layout K → α)
      (same : ∀ layout child, view (Layout.release layout child) = view layout) :=
    foldl_release_eq same children (layout.emitted idx op args)
  refine ⟨?_, ?_, ?_, ?_, ?_⟩
  · rw [kept Layout.operands fun _ _ => by rw [release_eq], emitted_eq]
  · rw [kept Layout.instructions fun _ _ => by rw [release_eq], emitted_eq]
  · rw [kept Layout.constants fun _ _ => by rw [release_eq], emitted_eq]
  · rw [kept Layout.slotCount fun _ _ => by rw [release_eq], emitted_eq]
  · rw [kept Layout.variableCount fun _ _ => by rw [release_eq], emitted_eq]

/-- What the visit of a node leaves. -/
inductive Visits (layout : Layout K) (graph : Graph K) (idx : NodeIdx) : Layout K → Prop where
  | leaf {id : VariableId} (known : graph.kind? idx = some (.leaf id)) :
      Visits layout graph idx
        ({ layout with variableCount := max layout.variableCount (id + 1) }.place idx (.leaf id))
  | constant {value : K} (known : graph.kind? idx = some (.constant value)) :
      Visits layout graph idx
        ({ layout with constants := layout.constants.push (value, idx) }.place idx
          (.constant layout.constants.size))
  | operator {op : Operator K} {children : List NodeIdx} {args : List Operand}
      (known : graph.kind? idx = some (.operator op children))
      (read : children.mapM (visited layout.operands) = .ok args) :
      Visits layout graph idx (children.foldl release (layout.emitted idx op args))

/-- The visit of an operator emits its instruction and then counts its uses. -/
theorem visit_eq_ok {layout : Layout K} {graph : Graph K} {idx : NodeIdx}
    {op : Operator K} {children : List NodeIdx} {args : List Operand}
    (wellFormed : graph.WellFormed) (known : graph.kind? idx = some (.operator op children))
    (read : children.mapM (visited layout.operands) = .ok args) :
    layout.visit graph idx =
      .ok (children.foldl Layout.release (layout.emitted idx op args)) := by
  obtain ⟨node, held, kind⟩ := Option.map_eq_some_iff.mp known
  unfold Layout.visit
  rw [Graph.node_eq_ok_iff.mpr held, Outcome.ok_bind, kind]
  dsimp only
  rw [read, Outcome.ok_bind, foldl_release_place _ fun child member =>
    Nat.ne_of_lt (wellFormed.child_lt held (by rwa [Node.children, kind]))]
  rfl

/-- Whether the constants met so far keep their places among later ones. -/
def KeepsConstants (layout : Layout K) (later : Array (K × NodeIdx)) : Prop :=
  ∀ (index : Nat) (entry : K × NodeIdx), layout.constants[index]? = some entry →
    later[index]? = some entry

section Visits

variable {layout next : Layout K} {graph : Graph K} {root idx child : NodeIdx}
  {order before after uses : List NodeIdx} {operand : Operand}

/-- What is found is found in the operands. -/
theorem visited_eq_ok_iff :
    visited layout.operands idx = .ok operand ↔
      layout.operands[idx]? = some (some operand) := by
  unfold visited
  rw [← Option.join_eq_some_iff]
  cases layout.operands[idx]?.join with
  | none => exact ⟨nofun, nofun⟩
  | some found =>
      exact ⟨fun same => congrArg some (Except.ok.inj same),
        fun same => congrArg Except.ok (Option.some.inj same)⟩

/-- An operator is found in a slot, and nothing else is. -/
theorem Locates.isOperator_iff (locates : layout.Locates graph idx operand) :
    graph.isOperator idx = true ↔ ∃ slot, operand = .slot slot := by
  rw [Graph.isOperator_iff]
  unfold Locates at locates
  split at locates
  · rename_i known
    rw [known, locates]
    exact ⟨nofun, nofun⟩
  · rename_i known
    obtain ⟨index, rfl, -⟩ := locates
    rw [known]
    exact ⟨nofun, nofun⟩
  · rename_i known
    exact ⟨fun _ => locates, fun _ => ⟨_, _, known⟩⟩
  · exact locates.elim

/-- Where constants keep their places, nodes are found as before. -/
theorem Locates.mono (locates : layout.Locates graph idx operand)
    (constants : layout.KeepsConstants next.constants) : next.Locates graph idx operand := by
  unfold Locates at locates ⊢
  split at locates
  · exact locates
  · obtain ⟨index, operand, entry⟩ := locates
    exact ⟨index, operand, constants index _ entry⟩
  · exact locates
  · exact locates

/-- A leaf is found as its variable. -/
theorem Locates.kind?_eq {id : VariableId} (locates : layout.Locates graph idx (.leaf id)) :
    graph.kind? idx = some (.leaf id) := by
  unfold Locates at locates
  split at locates
  · rename_i known
    cases locates
    exact known
  · obtain ⟨index, absurd, -⟩ := locates
    cases absurd
  · obtain ⟨slot, absurd⟩ := locates
    cases absurd
  · exact locates.elim

/-- Recording where a node is found locates it, and leaves the others. -/
theorem Charts.located_place (charts : layout.Charts graph root before)
    (bound : idx ≤ root) (placed : next.operands = layout.operands.setIfInBounds idx (some operand))
    (constants : layout.KeepsConstants next.constants)
    (locates : next.Locates graph idx operand) :
    ∀ query ∈ before ++ [idx], ∃ operand, next.operands[query]? = some (some operand) ∧
      next.Locates graph query operand := by
  intro query member
  rw [placed]
  by_cases same : query = idx
  · subst same
    have inside : query < layout.operands.size :=
      charts.operands_size ▸ Nat.lt_succ_of_le bound
    exact ⟨operand, Array.getElem?_setIfInBounds_self_of_lt inside, locates⟩
  · rw [Array.getElem?_setIfInBounds_ne (Ne.symm same)]
    rcases List.mem_append.mp member with member | member
    · obtain ⟨found, held, foundLocates⟩ := charts.located query member
      exact ⟨found, held, foundLocates.mono constants⟩
    · exact absurd (List.mem_singleton.mp member) same

/-- What is charted is a matter of operands, instructions and constants. -/
theorem Charts.congr (charts : layout.Charts graph root before)
    (operands : next.operands = layout.operands)
    (instructions : next.instructions = layout.instructions)
    (constants : next.constants = layout.constants) : next.Charts graph root before := by
  refine ⟨operands ▸ charts.operands_size, fun idx member => ?_, instructions ▸ charts.leaves⟩
  obtain ⟨operand, found, locates⟩ := charts.located idx member
  exact ⟨operand, operands ▸ found, locates.mono fun _ _ entry => constants ▸ entry⟩

/-- The constants that have been met keep their places. -/
theorem Visits.keepsConstants (visits : layout.Visits graph idx next) :
    layout.KeepsConstants next.constants := by
  cases visits with
  | leaf known => exact fun _ _ found => found
  | constant known =>
      intro index entry found
      have inside := (Array.getElem?_eq_some_iff.mp found).1
      exact (Array.getElem?_push_lt inside).trans
        ((Array.getElem?_eq_getElem inside).symm.trans found)
  | operator known read =>
      obtain ⟨-, -, constants, -⟩ := foldl_release_emitted layout idx _ _ _
      exact fun index entry found => (congrArg (·[index]?) constants).trans found

/-- The node that is visited is found where its operand says. -/
theorem Visits.exists_placed (visits : layout.Visits graph idx next) :
    ∃ operand, next.operands = layout.operands.setIfInBounds idx (some operand) ∧
      next.Locates graph idx operand := by
  cases visits with
  | @leaf id known => exact ⟨.leaf id, rfl, by unfold Locates; rw [known]⟩
  | constant known =>
      refine ⟨.constant layout.constants.size, rfl, ?_⟩
      unfold Locates
      rw [known]
      exact ⟨_, rfl, Array.getElem?_push_size⟩
  | operator known read =>
      obtain ⟨placed, -⟩ := foldl_release_emitted layout idx _ _ _
      refine ⟨.slot layout.nextSlot, placed, ?_⟩
      unfold Locates
      rw [known]
      exact ⟨_, rfl⟩

/-- Every visit charts its node. -/
theorem Charts.visits (charts : layout.Charts graph root before) (bound : idx ≤ root)
    (earlier : ∀ child ∈ graph.childrenAt idx, child ∈ before)
    (visits : layout.Visits graph idx next) : next.Charts graph root (before ++ [idx]) := by
  obtain ⟨operand, placed, locates⟩ := visits.exists_placed
  have older : ∀ instruction ∈ layout.instructions.toList, ∀ id, .leaf id ∈ instruction.args →
      ∃ query ∈ before ++ [idx], graph.kind? query = some (.leaf id) := by
    intro instruction emitted id read
    obtain ⟨query, member, known⟩ := charts.leaves instruction emitted id read
    exact ⟨query, List.mem_append_left _ member, known⟩
  refine ⟨?_, charts.located_place bound placed visits.keepsConstants locates, ?_⟩
  · rw [placed]
    exact Array.size_setIfInBounds.trans charts.operands_size
  · cases visits with
    | leaf | constant => exact older
    | @operator op children args known read =>
        obtain ⟨-, instructions, -⟩ := foldl_release_emitted layout idx op args children
        rw [Graph.childrenAt_eq_of_kind? known] at earlier
        rw [instructions, Array.toList_push]
        refine List.forall_mem_append.mpr ⟨older, List.forall_mem_singleton.mpr fun id member => ?_⟩
        -- an argument that is a variable is where one of the children is found
        obtain ⟨child, isChild, found⟩ := Outcome.exists_of_mem_mapM read member
        obtain ⟨operand, held, childLocates⟩ := charts.located child (earlier child isChild)
        cases Option.some.inj (Option.some.inj (held.symm.trans (visited_eq_ok_iff.mp found)))
        exact ⟨child, List.mem_append_left _ (earlier child isChild), childLocates.kind?_eq⟩

/-- Every visit whose turn it is succeeds. -/
theorem Charts.exists_visits (charts : layout.Charts graph root before)
    (wellFormed : graph.WellFormed) (inside : root < graph.size)
    (valid : graph.EvaluationOrder root order) (split : order = before ++ idx :: after) :
    ∃ next, layout.visit graph idx = .ok next ∧ layout.Visits graph idx next ∧
      next.Charts graph root (before ++ [idx]) := by
  have reaches := valid.reaches split
  obtain ⟨node, held⟩ := reaches.exists_node wellFormed inside
  have known := Graph.kind?_eq held
  have earlier : ∀ child ∈ graph.childrenAt idx, child ∈ before := fun child member =>
    valid.child_mem_before wellFormed split held (Graph.childrenAt_eq held ▸ member)
  suffices ∃ next, layout.visit graph idx = .ok next ∧ layout.Visits graph idx next by
    obtain ⟨next, visit, visits⟩ := this
    exact ⟨next, visit, visits, charts.visits (reaches.le wellFormed) earlier visits⟩
  cases kind : node.kind with
  | leaf id =>
      rw [kind] at known
      refine ⟨_, ?_, .leaf known⟩
      unfold Layout.visit
      rw [Graph.node_eq_ok_iff.mpr held, Outcome.ok_bind, kind]
      rfl
  | constant value =>
      rw [kind] at known
      refine ⟨_, ?_, .constant known⟩
      unfold Layout.visit
      rw [Graph.node_eq_ok_iff.mpr held, Outcome.ok_bind, kind]
      rfl
  | operator op children =>
      rw [kind] at known
      rw [Graph.childrenAt_eq_of_kind? known] at earlier
      obtain ⟨args, read⟩ := Outcome.exists_mapM_eq_ok fun child member => by
        obtain ⟨operand, found, -⟩ := charts.located child (earlier child member)
        exact ⟨operand, visited_eq_ok_iff.mpr found⟩
      exact ⟨_, visit_eq_ok wellFormed known read, .operator known read⟩

end Visits

end Layout

/-! ## Compilation -/

namespace Graph

/-- Counting one use of each child. -/
theorem countChildren_spec {bound : Nat} {children seen : List NodeIdx} {counts : Array UInt32}
    (below : ∀ child ∈ children, child < bound)
    (counted : ∀ idx, idx < bound → counts[idx]? = some (.ofNat (seen.count idx))) :
    ∀ idx, idx < bound →
      (children.foldl (fun uses child => uses.setIfInBounds child (uses.getD child 0 + 1))
        counts)[idx]? = some (.ofNat ((seen ++ children).count idx)) := by
  induction children generalizing seen counts with
  | nil => simpa only [List.foldl_nil, List.append_nil] using counted
  | cons child rest ih =>
      have inside := below child List.mem_cons_self
      have found := counted child inside
      have stepped : ∀ idx, idx < bound →
          (counts.setIfInBounds child (counts.getD child 0 + 1))[idx]? =
            some (.ofNat ((seen ++ [child]).count idx)) := by
        intro idx idxInside
        by_cases same : child = idx
        · subst same
          rw [Array.getElem?_setIfInBounds_self_of_lt (Array.getElem?_eq_some_iff.mp found).1,
            Array.getD_eq_getD_getElem?, found, Option.getD_some, List.count_append,
            List.count_singleton_self, UInt32.ofNat_add]
          rfl
        · rw [Array.getElem?_setIfInBounds_ne same, counted idx idxInside, List.count_append,
            List.count_singleton, if_neg (by simpa using same), Nat.add_zero]
      have shifted := ih (fun later member => below later (List.mem_cons_of_mem _ member)) stepped
      simpa only [List.foldl_cons, List.append_assoc, List.singleton_append] using shifted

/-- The uses of every node below a root are counted in words. -/
theorem countUses_spec {graph : Graph K} (wellFormed : graph.WellFormed) {root : NodeIdx}
    (inside : root < graph.size) {order : List NodeIdx}
    (valid : graph.EvaluationOrder root order) :
    ∃ counts, graph.countUses root order = .ok counts ∧
      ∀ idx, idx < root + 1 → counts[idx]? = some (.ofNat ((graph.usesOf order).count idx)) := by
  let counted (before : List NodeIdx) (counts : Array UInt32) : Prop :=
    ∀ idx, idx < root + 1 → counts[idx]? = some (.ofNat ((graph.usesOf before).count idx))
  have initially : counted [] (Array.replicate (root + 1) 0) := by
    intro idx bound
    rw [Array.getElem?_replicate, if_pos bound]
    rfl
  refine Outcome.exists_foldlM_eq_ok initially fun before idx after counts split known => ?_
  · have reaches := valid.reaches split
    obtain ⟨node, held⟩ := reaches.exists_node wellFormed inside
    refine ⟨_, by rw [node_eq_ok_iff.mpr held]; rfl, ?_⟩
    have extended : graph.usesOf (before ++ [idx]) = graph.usesOf before ++ node.children := by
      rw [usesOf, List.flatMap_append, List.flatMap_singleton, childrenAt_eq held]
      rfl
    unfold counted
    rw [extended]
    exact countChildren_spec (fun child member => Nat.lt_succ_of_lt (Nat.lt_of_lt_of_le
      (wellFormed.child_lt held member) (reaches.le wellFormed))) known

end Graph

namespace Layout

variable {graph : Graph K} {root : NodeIdx} {order : List NodeIdx} {counts : Array UInt32}

/-- The layout before the first visit. -/
def start (root : NodeIdx) (counts : Array UInt32) (variableCount : Nat) : Layout K :=
  { operands := Array.replicate (root + 1) none, pendingUses := counts, variableCount }

theorem charts_start (graph : Graph K) (root : NodeIdx) (counts : Array UInt32)
    (variableCount : Nat) : (start root counts variableCount).Charts graph root [] :=
  ⟨Array.size_replicate, nofun, nofun⟩

/-- The tape that is read off a layout. -/
def tape (layout : Layout K) (root : NodeIdx) (operand : Operand) : Tape K where
  instructions := layout.instructions
  constants := layout.constants
  slotCount := layout.slotCount.toNat
  root := operand
  rootOrigin := root
  variableCount := layout.variableCount

end Layout

namespace Graph

open Layout

variable {graph : Graph K} {root : NodeIdx} {order : List NodeIdx}

/-- The tape of a root is read off the final layout. -/
theorem compile_eq_ok {counts : Array UInt32} {variableCount : Nat} {final : Layout K}
    {operand : Operand} (found : graph.subtree root = .ok order)
    (counted : graph.countUses root order = .ok counts)
    (visits : order.foldlM (Layout.visit graph) (start root counts variableCount) = .ok final)
    (rootFound : final.operands[root]? = some (some operand)) :
    graph.compile root variableCount = .ok (final.tape root operand) := by
  unfold compile
  rw [found, Outcome.ok_bind, counted, Outcome.ok_bind]
  change (order.foldlM (Layout.visit graph) (start root counts variableCount) >>= _) = _
  rw [visits, Outcome.ok_bind, rootFound]
  rfl

/-- Every root of a well-formed graph compiles, however many uses and values there are, to a
tape that reads no variables but those below the root. -/
theorem exists_compile (wellFormed : graph.WellFormed) (inside : root < graph.size)
    (variableCount : Nat) :
    ∃ tape, graph.compile root variableCount = .ok tape ∧
      (∀ instruction ∈ tape.instructions.toList, ∀ id, .leaf id ∈ instruction.args →
        graph.Occurs root id) ∧
      ∀ id, tape.root = .leaf id → graph.Occurs root id := by
  obtain ⟨order, found, valid⟩ := subtree_spec wellFormed inside
  obtain ⟨counts, counted, -⟩ := countUses_spec wellFormed inside valid
  let charted (before : List NodeIdx) (layout : Layout K) : Prop :=
    layout.Charts graph root before
  have initially : charted [] (start root counts variableCount) :=
    charts_start graph root counts variableCount
  obtain ⟨final, visits, charts⟩ := Outcome.exists_foldlM_eq_ok initially
    fun before idx after layout split (charts : layout.Charts graph root before) => by
      obtain ⟨next, visit, -, kept⟩ := charts.exists_visits wellFormed inside valid split
      exact ⟨next, visit, kept⟩
  obtain ⟨operand, rootFound, locates⟩ := charts.located root valid.root_mem
  refine ⟨_, compile_eq_ok found counted visits rootFound, ?_, ?_⟩
  · intro instruction emitted id read
    obtain ⟨idx, member, known⟩ := charts.leaves instruction emitted id read
    exact ⟨idx, (valid.mem_iff idx).mp member, known⟩
  · intro id same
    cases same
    exact ⟨root, .refl, locates.kind?_eq⟩

end Graph

end MixedInteger
