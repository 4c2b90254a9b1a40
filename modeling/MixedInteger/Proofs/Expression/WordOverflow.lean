import MixedInteger.Proofs.Expression.LayoutSteps
import MixedInteger.Proofs.Expression.Representation
import MixedInteger.Proofs.Expression.Unfolding
import MixedInteger.Scalar.Binary64

/-! # Where words do not suffice

A value that is used `count` times gives its slot back whenever the word that counts its uses
passes zero (`Layout.foldl_release_replicate`), more than once if there are more than `2 ^ 32`
uses. The slot is then handed out to two values that are both needed, and the tape computes
something else (`Graph.compile_overused`). Where `2 ^ 32` values are kept at once, the number of
slots is one too small, and the tape writes to a slot that it does not have
(`Graph.compile_crowded`).
-/

namespace MixedInteger

namespace Layout

variable {K : Type}

/-- How often the word that counts uses is back at zero while they are taken off it. -/
def zeroes (count : Nat) : Nat := (count + (2 ^ 32 - 1)) / 2 ^ 32

/-- Taking off all uses of a value gives its slot back once for every time that the word which
counts them is back at zero. -/
theorem foldl_release_replicate {child : NodeIdx} {slot : UInt32} {count : Nat}
    {layout : Layout K} (found : layout.operands[child]? = some (some (.slot slot)))
    (counted : layout.pendingUses[child]? = some (.ofNat count)) :
    (List.replicate count child).foldl release layout =
      { layout with
        pendingUses := layout.pendingUses.setIfInBounds child 0
        freeSlots := List.replicate (zeroes count) slot ++ layout.freeSlots } := by
  have inside := (Array.getElem?_eq_some_iff.mp counted).1
  induction count generalizing layout with
  | zero =>
      have same : layout.pendingUses.setIfInBounds child 0 = layout.pendingUses :=
        Array.ext_getElem? fun idx => by
          rw [Array.getElem?_setIfInBounds]
          split
          · rename_i here
            subst here
            rw [counted]
            rfl
          · rfl
      rw [same]
      rfl
  | succ count ih =>
      have pending : layout.pendingUses.getD child 0 - 1 = .ofNat count := by
        rw [Array.getD_eq_getD_getElem?, counted, Option.getD_some, ofNat_succ_sub_one]
      have freed : layout.freed child = if count % 2 ^ 32 = 0 then [slot] else [] := by
        unfold freed
        simp only [pending, ofNat_eq_zero_iff, found, Option.join_some]
      have shrunk := Array.getElem?_setIfInBounds_self_of_lt (a := UInt32.ofNat count) inside
      rw [List.replicate_succ, List.foldl_cons, release_eq, pending]
      refine Eq.trans (ih found shrunk (by simpa using inside)) ?_
      have setTwice : (layout.pendingUses.setIfInBounds child (.ofNat count)).setIfInBounds child 0 =
          layout.pendingUses.setIfInBounds child 0 := Array.setIfInBounds_setIfInBounds ..
      have slots : List.replicate (zeroes count) slot ++ layout.freed child =
          List.replicate (zeroes (count + 1)) slot := by
        rw [freed]
        split
        · rw [← List.replicate_succ']
          congr 1
          unfold zeroes
          omega
        · rw [List.append_nil]
          congr 1
          unfold zeroes
          omega
      dsimp only
      rw [setTwice, ← slots, List.append_assoc]

/-- Whether a layout has handed out a number of slots in order and has none of them back. -/
structure Fresh (layout : Layout K) (taken : Nat) : Prop where
  free_eq : layout.freeSlots = []
  unused_eq : layout.unusedSlot = .ofNat taken
  slotCount_eq : layout.slotCount = .ofNat taken

/-- An instruction that is emitted takes a new slot, if none has been given back. -/
theorem Fresh.emitted {layout : Layout K} {taken : Nat} (fresh : layout.Fresh taken)
    (idx : NodeIdx) (op : Operator K) (args : List Operand) (fits : taken + 1 < 2 ^ 32) :
    (layout.emitted idx op args).Fresh (taken + 1) := by
  obtain ⟨free, unused, slots⟩ := fresh
  have grown : max (UInt32.ofNat taken) (UInt32.ofNat taken + 1) = .ofNat (taken + 1) := by
    rw [← UInt32.ofNat_one, ← UInt32.ofNat_add, ← UInt32.toNat_inj, UInt32.toNat_max,
      UInt32.toNat_ofNat', UInt32.toNat_ofNat']
    omega
  rw [emitted_eq, takeSlot_eq, free]
  refine ⟨rfl, ?_, ?_⟩
  · rw [if_pos rfl, unused, UInt32.ofNat_add]
    rfl
  · dsimp only
    rw [nextSlot, free, List.headD_nil, unused, slots, grown]

end Layout

namespace Tape

variable {K A : Type} [Numeric K A] {tape : Tape K} {lookup : VariableId → Option A}
  {options : EvalOptions}

/-- A step keeps the number of slots and writes inside. -/
theorem step_eq_ok {slots next : Array A} {instruction : Instruction K}
    (stepped : tape.step lookup options slots instruction = .ok next) :
    next.size = slots.size ∧ instruction.destination.toNat < slots.size := by
  obtain ⟨args, -, stepped⟩ := Outcome.bind_eq_ok_iff.mp stepped
  obtain ⟨result, -, stepped⟩ := Outcome.bind_eq_ok_iff.mp stepped
  obtain ⟨value, -, stepped⟩ := Outcome.bind_eq_ok_iff.mp stepped
  dsimp only at stepped
  split at stepped
  · rename_i inside
    cases stepped
    exact ⟨Array.size_setIfInBounds, inside⟩
  · cases stepped

/-- A tape has a value only if it has a slot for every instruction. -/
theorem destination_lt_of_run_eq_ok {value : A} (found : tape.run lookup options = .ok value) :
    ∀ instruction ∈ tape.instructions.toList, instruction.destination.toNat < tape.slotCount := by
  obtain ⟨slots, ran, -⟩ := Outcome.bind_eq_ok_iff.mp found
  have sized : (Array.replicate tape.slotCount (0 : A)).size = tape.slotCount :=
    Array.size_replicate
  generalize Array.replicate tape.slotCount (0 : A) = first at ran sized
  generalize tape.instructions.toList = instructions at ran
  induction instructions generalizing first with
  | nil => exact nofun
  | cons instruction rest ih =>
      rw [List.foldlM_cons] at ran
      obtain ⟨next, stepped, ran⟩ := Outcome.bind_eq_ok_iff.mp ran
      obtain ⟨size, inside⟩ := step_eq_ok stepped
      exact List.forall_mem_cons.mpr ⟨sized ▸ inside, ih next (size.trans sized) ran⟩

end Tape

namespace Graph

open Layout

/-! ## A value with too many uses -/

/-- A sum of one and the same value, two constants after it, and the sum of these three. -/
def overusedKind (count : Nat) : Nat → NodeKind Float
  | 0 => .operator (.linear [] 0.0) []
  | 1 => .operator .sum (List.replicate count 0)
  | 2 => .operator (.linear [] 1.0) []
  | 3 => .operator (.linear [] 2.0) []
  | _ => .operator .sum [1, 2, 3]

/-- The graph in which a value is used a number of times. -/
def overused (count : Nat) : Graph Float := ofKinds (overusedKind count) 5

/-- The tape of that graph if the slot of the value is given back twice. The second constant
overwrites the first one. -/
def overusedTape (count : Nat) : Tape Float where
  instructions := #[⟨.linear [] 0.0, [], 0, 0⟩, ⟨.sum, List.replicate count (.slot 0), 1, 1⟩,
    ⟨.linear [] 1.0, [], 0, 2⟩, ⟨.linear [] 2.0, [], 0, 3⟩,
    ⟨.sum, [.slot 1, .slot 0, .slot 0], 2, 4⟩]
  constants := #[]
  slotCount := 3
  root := .slot 2
  rootOrigin := 4
  variableCount := 0

theorem overusedKind_ne_leaf (count idx : Nat) (id : VariableId) :
    overusedKind count idx ≠ .leaf id := by
  unfold overusedKind
  split <;> nofun

section Overused

variable {count : Nat}

/-- The graph can be built if the value is used at all. -/
theorem built_overused (used : 0 < count) :
    (overused count).Built ∧ (overused count).size = 5 ∧
      ∀ idx, idx < 5 → (overused count).kind? idx = some (overusedKind count idx) := by
  refine built_ofKinds (by decide) (fun idx _ => ?_) fun idx inside child member => ?_
  · obtain rfl | other := eq_or_ne idx 1
    · obtain ⟨more, rfl⟩ := Nat.exists_eq_succ_of_ne_zero (Nat.ne_of_gt used)
      rw [overusedKind, NodeKind.checkArity, List.length_replicate]
      rfl
    · unfold overusedKind
      split <;> first | rfl | exact absurd rfl other
  · obtain rfl | rfl | rfl | rfl | rfl :
        idx = 0 ∨ idx = 1 ∨ idx = 2 ∨ idx = 3 ∨ idx = 4 := by omega
    · cases member
    · rw [List.eq_of_mem_replicate member]
      exact Nat.one_pos
    · cases member
    · cases member
    · have least : ∀ child ∈ [1, 2, 3], child < 4 := by decide
      exact least child member

/-- The last sum reads every other node, directly or not. -/
theorem evaluationOrder_overused (used : 0 < count) :
    (overused count).EvaluationOrder 4 [0, 1, 2, 3, 4] := by
  obtain ⟨built, -, known⟩ := built_overused used
  have below (idx : NodeIdx) (member : idx ∈ [1, 2, 3]) : (overused count).Reaches 4 idx :=
    reaches_child (known 4 (by decide)) member
  refine evaluationOrder_range built.wellFormed fun idx lower => ?_
  match idx, lower with
  | 0, _ =>
      have read : 0 ∈ List.replicate count 0 :=
        List.mem_replicate.mpr ⟨Nat.ne_of_gt used, rfl⟩
      exact (below 1 (by decide)).trans (reaches_child (known 1 (by decide)) read)
  | 1, _ | 2, _ | 3, _ => exact below _ (by decide)

/-- The last sum finds three values in use. -/
theorem lt_peakOf_overused (used : 0 < count) : 3 < (overused count).peakOf [0, 1, 2, 3, 4] := by
  obtain ⟨built, -, known⟩ := built_overused used
  have read : (overused count).childrenAt 4 = [1, 2, 3] :=
    childrenAt_eq_of_kind? (known 4 (by decide))
  have operands : ∀ child ∈ ({1, 2, 3} : Finset NodeIdx),
      child ∈ (overused count).childrenAt 4 ∧ (overused count).isOperator child = true := by
    intro child member
    rw [Finset.mem_insert, Finset.mem_insert, Finset.mem_singleton] at member
    rw [read]
    rcases member with rfl | rfl | rfl <;>
      exact ⟨by decide, isOperator_iff.mpr ⟨_, _, known _ (by decide)⟩⟩
  exact card_lt_peakOf built.wellFormed (evaluationOrder_overused used) (by decide)
    (isOperator_iff.mpr ⟨_, _, known 4 (by decide)⟩) (fun child member => (operands child member).1)
    fun child member => (operands child member).2

/-- The value is used as often as it is named, and every other node once by the last sum. -/
theorem usesOf_overused (used : 0 < count) :
    (overused count).usesOf [0, 1, 2, 3, 4] = List.replicate count 0 ++ [1, 2, 3] := by
  obtain ⟨-, -, known⟩ := built_overused used
  unfold usesOf
  simp only [List.flatMap_cons, List.flatMap_nil, childrenAt_eq_of_kind? (known 0 (by decide)),
    childrenAt_eq_of_kind? (known 1 (by decide)), childrenAt_eq_of_kind? (known 2 (by decide)),
    childrenAt_eq_of_kind? (known 3 (by decide)), childrenAt_eq_of_kind? (known 4 (by decide))]
  rfl

/-- The graph is laid out with one slot for the two constants, if the slot of the value is given
back twice. -/
theorem compile_overused (twice : zeroes count = 2) :
    (overused count).compile 4 0 = .ok (overusedTape count) := by
  have used : 0 < count := Nat.pos_of_ne_zero fun none => by
    subst none
    cases twice
  obtain ⟨built, size, known⟩ := built_overused used
  have wellFormed := built.wellFormed
  have inside : 4 < (overused count).size := size ▸ by decide
  have valid := evaluationOrder_overused used
  obtain ⟨order, found, others⟩ := subtree_spec wellFormed inside
  cases others.unique valid
  obtain ⟨counts, counted, uses⟩ := countUses_spec wellFormed inside valid
  have usedOften : counts[0]? = some (.ofNat count) := by
    rw [uses 0 (by decide), usesOf_overused used, List.count_append, List.count_replicate_self]
    rfl
  let first : Layout Float := (start 4 counts 0).emitted 0 (.linear [] 0.0) []
  let summed : Layout Float := first.emitted 1 .sum (List.replicate count (.slot 0))
  let second : Layout Float :=
    { summed with pendingUses := counts.setIfInBounds 0 0, freeSlots := [0, 0] }
  let third : Layout Float := second.emitted 2 (.linear [] 1.0) []
  let fourth : Layout Float := third.emitted 3 (.linear [] 2.0) []
  have visitFirst : (start 4 counts 0).visit (overused count) 0 = .ok first :=
    visit_eq_ok wellFormed (known 0 (by decide)) rfl
  have visitSecond : first.visit (overused count) 1 = .ok second := by
    have read : (List.replicate count 0).mapM (visited first.operands) =
        .ok (List.replicate count (.slot 0)) := by
      rw [← List.map_replicate (f := fun _ => Operand.slot 0)]
      refine Outcome.mapM_eq_ok_map fun child member => ?_
      rw [List.eq_of_mem_replicate member]
      rfl
    have released := foldl_release_replicate
      (rfl : summed.operands[0]? = some (some (.slot 0))) usedOften
    rw [twice] at released
    exact (visit_eq_ok wellFormed (known 1 (by decide)) read).trans (congrArg Except.ok released)
  have visitThird : second.visit (overused count) 2 = .ok third :=
    visit_eq_ok wellFormed (known 2 (by decide)) rfl
  have visitFourth : third.visit (overused count) 3 = .ok fourth :=
    visit_eq_ok wellFormed (known 3 (by decide)) rfl
  have visitRoot := visit_eq_ok wellFormed (known 4 (by decide))
    (rfl : [1, 2, 3].mapM (visited fourth.operands) = .ok [.slot 1, .slot 0, .slot 0])
  obtain ⟨placed, instructions, constants, slotCount, variableCount⟩ :=
    foldl_release_emitted fourth 4 .sum [.slot 1, .slot 0, .slot 0] [1, 2, 3]
  have visits : [0, 1, 2, 3, 4].foldlM (Layout.visit (overused count)) (start 4 counts 0) =
      .ok ([1, 2, 3].foldl release (fourth.emitted 4 .sum [.slot 1, .slot 0, .slot 0])) := by
    simp only [List.foldlM_cons, List.foldlM_nil, visitFirst, visitSecond, visitThird, visitFourth,
      visitRoot, Outcome.ok_bind]
    rfl
  have rootFound : ([1, 2, 3].foldl release
      (fourth.emitted 4 .sum [.slot 1, .slot 0, .slot 0])).operands[4]? = some (some (.slot 2)) := by
    rw [placed]
    rfl
  rw [compile_eq_ok found counted visits rootFound, Layout.tape, instructions, constants,
    slotCount, variableCount]
  rfl

theorem apply_linear_nil (x : Float) : (Operator.linear [] x).apply ([] : List Float) = .ok x := rfl

/-- A sum of zeros is zero. -/
theorem apply_sum_zeros (used : 0 < count) :
    (Operator.sum : Operator Float).apply (List.replicate count (0.0 : Float)) = .ok 0.0 := by
  have total (more : Nat) : (List.replicate more (0.0 : Float)).foldl (· + ·) 0.0 = 0.0 := by
    induction more with
    | zero => rfl
    | succ more ih =>
        rw [List.replicate_succ, List.foldl_cons, (by decide : (0.0 : Float) + 0.0 = 0.0)]
        exact ih
  obtain ⟨more, rfl⟩ := Nat.exists_eq_succ_of_ne_zero (Nat.ne_of_gt used)
  exact congrArg Except.ok (total (more + 1))

/-- The graph has the sum of zero, one and two. -/
theorem eval_overused (used : 0 < count) :
    (overused count).eval 4 ({} : Assignment Float) { checkFinite := false } = .ok 3.0 := by
  obtain ⟨built, size, known⟩ := built_overused used
  have wellFormed := built.wellFormed
  have unbound : ∀ id, ¬ (overused count).Occurs 4 id := by
    rintro id ⟨idx, reaches, leaf⟩
    rw [known idx (Nat.lt_succ_of_le (reaches.le wellFormed))] at leaf
    exact overusedKind_ne_leaf count idx id (Option.some.inj leaf)
  let point : VariableId → Float := fun _ => 0
  have bound : ∀ id, (overused count).Occurs 4 id → ({} : Assignment Float).get? id = some (point id) :=
    fun id occurs => absurd occurs (unbound id)
  rw [eval_eq_interpret wellFormed (size ▸ by decide) bound]
  have applied {idx : NodeIdx} {op : Operator Float} {children : List NodeIdx}
      (is : (overused count).kind? idx = some (.operator op children)) {value : Float}
      (found : op.apply (children.map ((overused count).interpret (.values point))) = .ok value) :
      (overused count).interpret (.values point) idx = value :=
    Except.ok.inj ((apply_eq_ok_interpret wellFormed is).symm.trans found)
  have zero := applied (known 0 (by decide)) (apply_linear_nil 0.0)
  have total := applied (known 1 (by decide)) (by
    rw [List.map_replicate, zero]
    exact apply_sum_zeros used)
  have lower := applied (known 2 (by decide)) (apply_linear_nil 1.0)
  have upper := applied (known 3 (by decide)) (apply_linear_nil 2.0)
  refine congrArg Except.ok (applied (known 4 (by decide)) ?_)
  rw [List.map_cons, List.map_cons, List.map_singleton, total, lower, upper]
  exact congrArg Except.ok (by decide : ([0.0, 1.0, 2.0] : List Float).foldl (· + ·) 0.0 = 3.0)

/-- A step that finds its arguments writes what its operator makes of them. -/
theorem step_eq_setIfInBounds {tape : Tape Float} {lookup : VariableId → Option Float}
    {slots : Array Float} {instruction : Instruction Float} {args : List Float} {value : Float}
    (read : instruction.args.mapM
      (tape.read lookup { checkFinite := false } slots instruction.origin) = .ok args)
    (applied : instruction.operator.apply args = .ok value)
    (inside : instruction.destination.toNat < slots.size) :
    tape.step lookup { checkFinite := false } slots instruction =
      .ok (slots.setIfInBounds instruction.destination.toNat value) := by
  unfold Tape.step
  rw [read, Outcome.ok_bind, applied]
  exact if_pos inside

/-- The tape takes the second constant for both. -/
theorem eval_overusedTape (used : 0 < count) :
    (overusedTape count).eval ({} : Assignment Float) { checkFinite := false } = .ok 4.0 := by
  have zeros : (List.replicate count (Operand.slot 0)).mapM ((overusedTape count).read
      ({} : Assignment Float).get? { checkFinite := false } #[0.0, 0, 0] 1) =
      .ok (List.replicate count 0.0) := by
    rw [← List.map_replicate (f := fun _ => (0.0 : Float))]
    refine Outcome.mapM_eq_ok_map fun operand member => ?_
    rw [List.eq_of_mem_replicate member]
    rfl
  have total : (Operator.sum : Operator Float).apply [(0.0 : Float), 2.0, 2.0] = .ok 4.0 :=
    congrArg Except.ok (by decide : ([0.0, 2.0, 2.0] : List Float).foldl (· + ·) 0.0 = 4.0)
  let step := (overusedTape count).step ({} : Assignment Float).get? { checkFinite := false }
  have first : step #[0, 0, 0] ⟨.linear [] 0.0, [], 0, 0⟩ = .ok #[0.0, 0, 0] :=
    step_eq_setIfInBounds rfl (apply_linear_nil 0.0) (by decide : (0 : UInt32).toNat < 3)
  have second : step #[0.0, 0, 0] ⟨.sum, List.replicate count (.slot 0), 1, 1⟩ =
      .ok #[0.0, 0.0, 0] :=
    step_eq_setIfInBounds zeros (apply_sum_zeros used) (by decide : (1 : UInt32).toNat < 3)
  have third : step #[0.0, 0.0, 0] ⟨.linear [] 1.0, [], 0, 2⟩ = .ok #[1.0, 0.0, 0] :=
    step_eq_setIfInBounds rfl (apply_linear_nil 1.0) (by decide : (0 : UInt32).toNat < 3)
  have fourth : step #[1.0, 0.0, 0] ⟨.linear [] 2.0, [], 0, 3⟩ = .ok #[2.0, 0.0, 0] :=
    step_eq_setIfInBounds rfl (apply_linear_nil 2.0) (by decide : (0 : UInt32).toNat < 3)
  have last : step #[2.0, 0.0, 0] ⟨.sum, [.slot 1, .slot 0, .slot 0], 2, 4⟩ =
      .ok #[2.0, 0.0, 4.0] :=
    step_eq_setIfInBounds rfl total (by decide : (2 : UInt32).toNat < 3)
  have ran : (overusedTape count).instructions.toList.foldlM step #[0, 0, 0] =
      .ok #[2.0, 0.0, 4.0] := by
    change [_, _, _, _, _].foldlM step #[0, 0, 0] = _
    rw [List.foldlM_cons, first, Outcome.ok_bind, List.foldlM_cons, second, Outcome.ok_bind,
      List.foldlM_cons, third, Outcome.ok_bind, List.foldlM_cons, fourth, Outcome.ok_bind,
      List.foldlM_cons, last]
    rfl
  exact congrArg (· >>= fun slots => (overusedTape count).read ({} : Assignment Float).get?
    { checkFinite := false } slots 4 (.slot 2)) ran

end Overused

/-! ## Too many values at once -/

/-- Constants without children, and a sum of them all. -/
def crowdedKind (count idx : Nat) : NodeKind Float :=
  if idx < count then .operator (.linear [] 0.0) [] else .operator .sum (List.range count)

/-- The graph in which a sum needs a number of values at once. -/
def crowded (count : Nat) : Graph Float := ofKinds (crowdedKind count) (count + 1)

section Crowded

variable {count : Nat}

/-- Every node of the graph is an operator. -/
theorem isOperator_crowdedKind (count idx : Nat) :
    ((crowdedKind count idx).operator?).isSome = true := by
  unfold crowdedKind
  split <;> rfl

/-- The graph can be built as long as there are indices. -/
theorem built_crowded (positive : 0 < count) (fits : count < 2 ^ 32) :
    (crowded count).Built ∧ (crowded count).size = count + 1 ∧
      ∀ idx, idx < count + 1 → (crowded count).kind? idx = some (crowdedKind count idx) := by
  refine built_ofKinds fits (fun idx _ => ?_) fun idx inside child member => ?_
  · unfold crowdedKind
    split
    · rfl
    · obtain ⟨more, rfl⟩ := Nat.exists_eq_succ_of_ne_zero (Nat.ne_of_gt positive)
      rw [NodeKind.checkArity, List.length_range]
      rfl
  · unfold crowdedKind at member
    split at member
    · cases member
    · exact Nat.lt_of_lt_of_le (List.mem_range.mp member) (Nat.le_of_not_lt ‹_›)

/-- What a node of the graph stands for: a constant, or the sum if it is the last one. -/
theorem kind?_crowded (positive : 0 < count) (fits : count < 2 ^ 32) :
    (∀ idx, idx < count →
      (crowded count).kind? idx = some (.operator (.linear [] 0.0) [])) ∧
    (crowded count).kind? count = some (.operator .sum (List.range count)) := by
  obtain ⟨-, -, known⟩ := built_crowded positive fits
  refine ⟨fun idx lower => ?_, ?_⟩
  · rw [known idx (Nat.lt_succ_of_lt lower), crowdedKind, if_pos lower]
  · rw [known count (Nat.lt_succ_self count), crowdedKind, if_neg (Nat.lt_irrefl count)]

/-- The sum reads every other node. -/
theorem evaluationOrder_crowded (positive : 0 < count) (fits : count < 2 ^ 32) :
    (crowded count).EvaluationOrder count (List.range (count + 1)) :=
  evaluationOrder_range (built_crowded positive fits).1.wellFormed fun _ lower =>
    reaches_child (kind?_crowded positive fits).2 (List.mem_range.mpr lower)

/-- The sum finds all constants in use. -/
theorem lt_peakOf_crowded (positive : 0 < count) (fits : count < 2 ^ 32) :
    count < (crowded count).peakOf (List.range (count + 1)) := by
  obtain ⟨constants, last⟩ := kind?_crowded positive fits
  refine lt_of_eq_of_lt (Finset.card_range count).symm ?_
  refine card_lt_peakOf (built_crowded positive fits).1.wellFormed
    (evaluationOrder_crowded positive fits) (List.mem_range.mpr (Nat.lt_succ_self count))
    (isOperator_iff.mpr ⟨_, _, last⟩) (fun child member => ?_) fun child member => ?_
  · rw [childrenAt_eq_of_kind? last]
    exact List.mem_range.mpr (Finset.mem_range.mp member)
  · exact isOperator_iff.mpr ⟨_, _, constants child (Finset.mem_range.mp member)⟩

/-- Without checks the graph has a value. -/
theorem eval_crowded (positive : 0 < count) (fits : count < 2 ^ 32) :
    ∃ value, (crowded count).eval count ({} : Assignment Float) { checkFinite := false } =
      .ok value := by
  obtain ⟨built, size, known⟩ := built_crowded positive fits
  have wellFormed := built.wellFormed
  let point : VariableId → Float := fun _ => 0
  have bound : ∀ id, (crowded count).Occurs count id →
      ({} : Assignment Float).get? id = some (point id) := by
    rintro id ⟨idx, reaches, leaf⟩
    rw [known idx (Nat.lt_succ_of_le (reaches.le wellFormed))] at leaf
    have operator := isOperator_crowdedKind count idx
    rw [Option.some.inj leaf] at operator
    cases operator
  exact ⟨_, eval_eq_interpret wellFormed (size ▸ Nat.lt_succ_self count) bound⟩

/-- The constants are laid out with one new slot each. -/
theorem exists_fresh_crowded (positive : 0 < count) (fits : count < 2 ^ 32)
    (counts : Array UInt32) :
    ∃ layout, (List.range count).foldlM (Layout.visit (crowded count)) (start count counts 0) =
        .ok layout ∧ layout.Charts (crowded count) count (List.range count) ∧
      layout.Fresh count := by
  obtain ⟨built, size, -⟩ := built_crowded positive fits
  have wellFormed := built.wellFormed
  have inside : count < (crowded count).size := size ▸ Nat.lt_succ_self count
  have valid := evaluationOrder_crowded positive fits
  let invariant (before : List NodeIdx) (layout : Layout Float) : Prop :=
    layout.Charts (crowded count) count before ∧ layout.Fresh before.length
  have initially : invariant [] (start count counts 0) :=
    ⟨charts_start (crowded count) count counts 0, rfl, rfl, rfl⟩
  have preserved (before : List NodeIdx) (idx : NodeIdx) (after : List NodeIdx)
      (layout : Layout Float) (split : List.range count = before ++ idx :: after)
      (reached : invariant before layout) :
      ∃ next, layout.visit (crowded count) idx = .ok next ∧ invariant (before ++ [idx]) next := by
    have whole : List.range (count + 1) = before ++ idx :: (after ++ [count]) := by
      rw [List.range_succ, split, List.append_assoc, List.cons_append]
    have bound : before.length + 1 + after.length = count := by
      rw [← List.length_range (n := count), split, List.length_append, List.length_cons]
      omega
    have member : idx ∈ List.range count := split ▸ List.mem_append_right _ List.mem_cons_self
    obtain ⟨next, visit, -, charts⟩ := reached.1.exists_visits wellFormed inside valid whole
    have emits : layout.visit (crowded count) idx = .ok _ := visit_eq_ok wellFormed
      ((kind?_crowded positive fits).1 idx (List.mem_range.mp member)) rfl
    cases Except.ok.inj (visit.symm.trans emits)
    refine ⟨_, visit, charts, ?_⟩
    rw [List.length_append, List.length_singleton]
    exact reached.2.emitted idx (.linear [] 0.0) [] (by omega)
  obtain ⟨layout, visits, charts, fresh⟩ := Outcome.exists_foldlM_eq_ok initially preserved
  exact ⟨layout, visits, charts, List.length_range (n := count) ▸ fresh⟩

/-- Where as many values are kept as there are words, the last instruction of the tape writes to
a slot that the tape does not have, so the tape has no value. -/
theorem compile_crowded (positive : 0 < count) (full : count + 1 = 2 ^ 32) :
    ∃ tape, (crowded count).compile count 0 = .ok tape ∧ tape.slotCount = count ∧
      ∀ (assignment : Assignment Float) options value,
        tape.eval assignment options ≠ .ok value := by
  have fits : count < 2 ^ 32 := full ▸ Nat.lt_succ_self count
  obtain ⟨built, size, -⟩ := built_crowded positive fits
  have wellFormed := built.wellFormed
  have inside : count < (crowded count).size := size ▸ Nat.lt_succ_self count
  have valid := evaluationOrder_crowded positive fits
  obtain ⟨order, found, others⟩ := subtree_spec wellFormed inside
  cases others.unique valid
  obtain ⟨counts, counted, -⟩ := countUses_spec wellFormed inside valid
  obtain ⟨layout, visits, charts, fresh⟩ := exists_fresh_crowded positive fits counts
  obtain ⟨final, visit, emits, finalCharts⟩ :=
    charts.exists_visits wellFormed inside valid List.range_succ
  obtain ⟨operand, rootFound, -⟩ := finalCharts.located count (List.mem_append_right _ (by simp))
  have whole : (List.range (count + 1)).foldlM (Layout.visit (crowded count))
      (start count counts 0) = .ok final := by
    rw [List.range_succ, List.foldlM_append, visits, Outcome.ok_bind, List.foldlM_cons, visit]
    rfl
  suffices laidOut : (final.tape count operand).slotCount = count ∧
      ∃ instruction ∈ final.instructions.toList, instruction.destination.toNat = count by
    obtain ⟨slots, instruction, emitted, outside⟩ := laidOut
    refine ⟨_, compile_eq_ok found counted whole rootFound, slots,
      fun assignment options value evaluated => ?_⟩
    have lower := Tape.destination_lt_of_run_eq_ok evaluated instruction emitted
    exact Nat.ne_of_lt lower (outside.trans slots.symm)
  have word : (UInt32.ofNat count).toNat = count := by
    rw [UInt32.toNat_ofNat']
    exact Nat.mod_eq_of_lt fits
  have next : layout.nextSlot = .ofNat count := by
    rw [nextSlot, fresh.free_eq, List.headD_nil, fresh.unused_eq]
  cases emits with
  | leaf known | constant known =>
      cases (kind?_crowded positive fits).2.symm.trans known
  | @operator op children args known read =>
      obtain ⟨-, instructions, -, slotCount, -⟩ :=
        foldl_release_emitted layout count op args children
      refine ⟨?_, ⟨op, args, layout.nextSlot, count⟩, ?_, next ▸ word⟩
      · -- the number after the largest slot wraps to zero
        have wrapped : UInt32.ofNat count + 1 = 0 :=
          (UInt32.ofNat_add count 1).symm.trans (ofNat_eq_zero_iff.mpr (by rw [full, Nat.mod_self]))
        change (children.foldl release (layout.emitted count op args)).slotCount.toNat = count
        rw [slotCount, takeSlot_eq]
        dsimp only
        rw [next, fresh.slotCount_eq, wrapped, UInt32.toNat_max, word]
        exact Nat.max_zero count
      · rw [instructions, Array.toList_push]
        exact List.mem_append_right _ (List.mem_singleton_self _)

end Crowded

end Graph

end MixedInteger
