import Mathlib.Data.Set.Card
import Mathlib.Order.CompletePartialOrder
import MixedInteger.Proofs.SearchTree.History

/-! # The books of a tracker

A tracker counts its open nodes apart from the states that it records, and it looks for the
parent of a node only when the node is added. Whatever it is asked, the count is that of the
recorded states, no subtraction meets a smaller number, and with a node all its ancestors are
recorded. The open nodes are listed in the order of their paths, which puts a node behind its
ancestors (`Tracker.session_keepsBooks`).
-/

namespace MixedInteger

namespace Coordinate

/-- Coordinates are ordered as their paths are, choice by choice. -/
theorem compare_eq_lt_iff {left right : Coordinate} :
    compare left right = .lt ↔ left.path < right.path := by
  obtain ⟨path⟩ := left
  obtain ⟨other⟩ := right
  change compare path other = .lt ↔ path < other
  induction path generalizing other with
  | nil => cases other <;> simp
  | cons choice path ih =>
      cases other with
      | nil => simp
      | cons otherChoice other =>
          rw [List.compare_cons_cons, Ordering.then_eq_lt, Std.compare_eq_lt,
            Std.compare_eq_iff_eq, ih, List.cons_lt_cons_iff]

/-- The path to a node goes on from the paths to its ancestors. -/
theorem isAncestorOf_iff {above below : Coordinate} :
    above.isAncestorOf below = true ↔ ∃ rest, rest ≠ [] ∧ below.path = above.path ++ rest := by
  unfold isAncestorOf
  rw [Bool.and_eq_true, decide_eq_true_eq, List.isPrefixOf_iff_prefix]
  constructor
  · rintro ⟨shorter, rest, same⟩
    refine ⟨rest, ?_, same.symm⟩
    rintro rfl
    rw [← same, List.append_nil] at shorter
    exact Nat.lt_irrefl _ shorter
  · rintro ⟨rest, more, same⟩
    refine ⟨?_, rest, same.symm⟩
    rw [same, List.length_append]
    exact Nat.lt_add_of_pos_right (List.length_pos_iff.mpr more)

/-- The path to a node comes after the paths to its ancestors. -/
theorem path_lt_of_isAncestorOf {above below : Coordinate}
    (ancestor : above.isAncestorOf below = true) : above.path < below.path := by
  obtain ⟨rest, more, same⟩ := isAncestorOf_iff.mp ancestor
  rw [same]
  induction above.path with
  | nil =>
      obtain ⟨choice, rest, rfl⟩ := List.exists_cons_of_ne_nil more
      exact List.nil_lt_cons choice rest
  | cons choice path ih => exact List.cons_lt_cons_iff.mpr (.inr ⟨rfl, ih⟩)

end Coordinate

namespace Tracker

variable {tracker next : Tracker} {coordinate : Coordinate}

/-- The coordinates that a tracker has recorded. -/
def recorded (tracker : Tracker) : Set Coordinate :=
  { coordinate | (tracker.state? coordinate).isSome = true }

/-- The coordinates that a tracker has recorded in a certain state. -/
def recordedAs (tracker : Tracker) (state : NodeState) : Set Coordinate :=
  { coordinate | tracker.state? coordinate = some state }

theorem recordedAs_subset (tracker : Tracker) (state : NodeState) :
    tracker.recordedAs state ⊆ tracker.recorded := fun _ known =>
  Option.isSome_of_eq_some known

/-- A recorded node is open or pruned. -/
theorem recorded_eq_union (tracker : Tracker) :
    tracker.recorded = tracker.recordedAs .opened ∪ tracker.recordedAs .pruned := by
  ext coordinate
  change (tracker.state? coordinate).isSome = true ↔
    tracker.state? coordinate = some .opened ∨ tracker.state? coordinate = some .pruned
  cases tracker.state? coordinate with
  | none => simp
  | some state => cases state <;> simp

/-- No coordinate is open and pruned at once. -/
theorem disjoint_recordedAs (tracker : Tracker) :
    Disjoint (tracker.recordedAs .opened) (tracker.recordedAs .pruned) := by
  refine Set.disjoint_left.mpr fun coordinate opened pruned => ?_
  cases opened.symm.trans pruned

/-! ## What an insertion records -/

/-- An insertion records its coordinate and forgets none. -/
theorem recorded_insert (tracker : Tracker) (coordinate : Coordinate) (state : NodeState)
    (count : Nat) :
    recorded ⟨tracker.nodes.insert coordinate state, count⟩ =
      insert coordinate tracker.recorded := by
  ext query
  change (state? _ query).isSome = true ↔ query = coordinate ∨ (tracker.state? query).isSome = true
  rw [state?_insert]
  by_cases same : query = coordinate <;> simp [same]

/-- The coordinate of an insertion joins those of its state. -/
theorem recordedAs_insert_self (tracker : Tracker) (coordinate : Coordinate) (state : NodeState)
    (count : Nat) :
    recordedAs ⟨tracker.nodes.insert coordinate state, count⟩ state =
      insert coordinate (tracker.recordedAs state) := by
  ext query
  change state? _ query = some state ↔ query = coordinate ∨ tracker.state? query = some state
  rw [state?_insert]
  by_cases same : query = coordinate <;> simp [same]

/-- The coordinate of an insertion leaves those of the other state. -/
theorem recordedAs_insert_of_ne (tracker : Tracker) (coordinate : Coordinate)
    {state other : NodeState} (different : state ≠ other) (count : Nat) :
    recordedAs ⟨tracker.nodes.insert coordinate state, count⟩ other =
      tracker.recordedAs other \ {coordinate} := by
  ext query
  change state? _ query = some other ↔ tracker.state? query = some other ∧ query ≠ coordinate
  rw [state?_insert]
  by_cases same : query = coordinate <;> simp [same, different]

/-- An insertion makes the tracker larger by one unless its coordinate was recorded already. -/
theorem size_insert (tracker : Tracker) (coordinate : Coordinate) (state : NodeState)
    (count : Nat) :
    size ⟨tracker.nodes.insert coordinate state, count⟩ =
      if (tracker.state? coordinate).isSome then tracker.size else tracker.size + 1 := by
  unfold size state?
  rw [Std.ExtTreeMap.size_insert, Std.ExtTreeMap.contains_eq_isSome_getElem?]

/-! ## What every request keeps -/

/-- What the counts and the coordinates of a tracker owe to the states that it records. -/
structure Balanced (tracker : Tracker) : Prop where
  encard_opened : (tracker.recordedAs .opened).encard = tracker.openCount
  encard_recorded : tracker.recorded.encard = tracker.size
  /-- The parent of a recorded node is recorded. -/
  parent_recorded : ∀ above branch, Coordinate.child above branch ∈ tracker.recorded →
    above ∈ tracker.recorded

namespace Balanced

/-- A tracker that has recorded nothing is balanced. -/
theorem empty : ({} : Tracker).Balanced := by
  have nothing (coordinate : Coordinate) : ({} : Tracker).state? coordinate = none :=
    Std.ExtTreeMap.getElem?_empty
  constructor
  · rw [Set.encard_eq_zero.mpr (Set.eq_empty_of_forall_notMem fun coordinate opened => ?_)]
    · rfl
    · cases (nothing coordinate).symm.trans opened
  · rw [Set.encard_eq_zero.mpr (Set.eq_empty_of_forall_notMem fun coordinate known => ?_)]
    · rfl
    · exact absurd known (by simp [recorded, nothing])
  · exact fun above branch known => absurd known (by simp [recorded, nothing])

/-- An open node is among those that are counted. -/
theorem openCount_pos (balanced : tracker.Balanced)
    (opened : tracker.state? coordinate = some .opened) : 0 < tracker.openCount := by
  refine Nat.pos_of_ne_zero fun none => ?_
  have empty := Set.encard_eq_zero.mp (balanced.encard_opened.trans (congrArg _ none))
  exact Set.notMem_empty coordinate (empty ▸ opened)

/-- An addition is counted, and it is accepted below a recorded node only. -/
theorem add (balanced : tracker.Balanced) (accepted : tracker.add coordinate = .ok next) :
    next.Balanced := by
  obtain ⟨absent, -⟩ := add_eq_ok accepted
  obtain ⟨⟨⟩, checked, accepted⟩ := Outcome.bind_eq_ok_iff.mp accepted
  cases accepted
  have new : coordinate ∉ tracker.recorded := by simp [recorded, absent]
  constructor
  · have notOpen : coordinate ∉ tracker.recordedAs .opened := fun opened =>
      new (tracker.recordedAs_subset .opened opened)
    rw [recordedAs_insert_self, Set.encard_insert_of_notMem notOpen, balanced.encard_opened]
    rfl
  · rw [recorded_insert, Set.encard_insert_of_notMem new, balanced.encard_recorded, size_insert,
      if_neg (show ¬ (tracker.state? coordinate).isSome = true from new)]
    rfl
  · intro above branch known
    rw [recorded_insert] at known ⊢
    rcases known with rfl | before
    · by_contra missing
      have orphan := checkAdd_of_orphan new (Coordinate.parent?_child above branch)
        fun present => missing (.inr present)
      cases checked.symm.trans orphan
    · exact .inr (balanced.parent_recorded above branch before)

/-- A prune takes one of the open nodes off the count. -/
theorem prune (balanced : tracker.Balanced) (accepted : tracker.prune coordinate = .ok next) :
    next.Balanced := by
  obtain ⟨opened, -⟩ := prune_eq_ok accepted
  obtain ⟨⟨⟩, -, accepted⟩ := Outcome.bind_eq_ok_iff.mp accepted
  cases accepted
  have positive := balanced.openCount_pos opened
  have known : coordinate ∈ tracker.recorded := tracker.recordedAs_subset .opened opened
  have unchanged : recorded ⟨tracker.nodes.insert coordinate .pruned, tracker.openCount - 1⟩ =
      tracker.recorded := by
    rw [recorded_insert, Set.insert_eq_of_mem known]
  constructor
  · have fewer := Set.encard_sdiff_singleton_add_one (s := tracker.recordedAs .opened) opened
    rw [balanced.encard_opened, ← Nat.sub_add_cancel positive, Nat.cast_add] at fewer
    rw [recordedAs_insert_of_ne _ _ (by decide : NodeState.pruned ≠ .opened)]
    exact ENat.add_left_injective_of_ne_top ENat.one_ne_top fewer
  · rw [unchanged, balanced.encard_recorded, size_insert]
    exact congrArg _ (if_pos known).symm
  · intro above branch member
    rw [unchanged] at member ⊢
    exact balanced.parent_recorded above branch member

/-- No answer upsets the balance. -/
theorem answer {recorded : History × Tracker} (balanced : recorded.2.Balanced)
    (request : Request) : (answer recorded request).2.Balanced := by
  cases asks : request.change? with
  | none => rwa [answer_of_no_change asks]
  | some change =>
      rw [answer_of_change asks, Tracker.answer]
      cases accepted : change.request.outcome recorded.2 with
      | error error => exact balanced
      | ok next =>
          cases change with
          | added coordinate => exact balanced.add accepted
          | pruned coordinate => exact balanced.prune accepted

end Balanced

/-- A tracker that starts empty is balanced after any requests. -/
theorem session_balanced (requests : List Request) : (session requests).2.Balanced := by
  induction requests using List.reverseRecOn with
  | nil => exact Balanced.empty
  | append_singleton requests request ih =>
      rw [session_concat]
      exact ih.answer request

/-! ## What follows from the balance -/

namespace Balanced

variable (balanced : tracker.Balanced)
include balanced

/-- The pruned nodes are counted by what the open ones leave of all. -/
theorem openCount_add_encard_pruned :
    (tracker.openCount + (tracker.recordedAs .pruned).encard : ℕ∞) = tracker.size := by
  rw [← balanced.encard_recorded, ← balanced.encard_opened, recorded_eq_union,
    Set.encard_union_eq tracker.disjoint_recordedAs]

/-- There are never more open nodes than nodes. -/
theorem openCount_le_size : tracker.openCount ≤ tracker.size := by
  have fewer := Set.encard_le_encard (tracker.recordedAs_subset .opened)
  rw [balanced.encard_opened, balanced.encard_recorded] at fewer
  exact_mod_cast fewer

/-- The coordinates recorded as pruned are as many as the count of pruned nodes says. -/
theorem encard_pruned : (tracker.recordedAs .pruned).encard = tracker.prunedCount := by
  have sum := balanced.openCount_add_encard_pruned
  have whole : tracker.openCount + tracker.prunedCount = tracker.size :=
    Nat.add_sub_of_le balanced.openCount_le_size
  rw [← whole, Nat.cast_add] at sum
  exact ENat.add_right_injective_of_ne_top (ENat.natCast_ne_top _) sum

/-- With a node all its ancestors are recorded. -/
theorem ancestor_recorded {above below : Coordinate} (ancestor : above.isAncestorOf below = true)
    (known : below ∈ tracker.recorded) : above ∈ tracker.recorded := by
  obtain ⟨rest, -, same⟩ := Coordinate.isAncestorOf_iff.mp ancestor
  obtain ⟨path⟩ := below
  obtain ⟨front⟩ := above
  obtain rfl : path = front ++ rest := same
  clear ancestor
  -- up from the node, one choice at a time
  induction rest using List.reverseRecOn with
  | nil => rwa [List.append_nil] at known
  | append_singleton rest choice ih =>
      rw [← List.append_assoc] at known
      exact ih (balanced.parent_recorded ⟨front ++ rest⟩ choice known)

end Balanced

/-- The listed open nodes are those that are recorded as open. -/
theorem mem_openNodes : coordinate ∈ tracker.openNodes ↔ tracker.state? coordinate = some .opened := by
  unfold openNodes state?
  simp only [List.mem_map, List.mem_filter, decide_eq_true_eq, Prod.exists, exists_and_right,
    exists_eq_right, Std.ExtTreeMap.mem_toList_iff_getElem?_eq_some]

/-- The open nodes ascend by their paths. -/
theorem pairwise_openNodes (tracker : Tracker) :
    tracker.openNodes.Pairwise fun left right => left.path < right.path := by
  refine List.pairwise_map.mpr (List.Pairwise.filter _ ?_)
  exact Std.ExtTreeMap.ordered_keys_toList.imp Coordinate.compare_eq_lt_iff.mp

/-- An open ancestor of a listed node is listed before it. -/
theorem ancestor_mem_before {above below : Coordinate} {before after : List Coordinate}
    (split : tracker.openNodes = before ++ below :: after)
    (ancestor : above.isAncestorOf below = true) (opened : tracker.state? above = some .opened) :
    above ∈ before := by
  have listed : above ∈ tracker.openNodes := mem_openNodes.mpr opened
  have ascending := tracker.pairwise_openNodes
  have less := Coordinate.path_lt_of_isAncestorOf ancestor
  rw [split, List.pairwise_append, List.pairwise_cons] at ascending
  rw [split, List.mem_append, List.mem_cons] at listed
  rcases listed with earlier | rfl | later
  · exact earlier
  · exact absurd less (List.lt_irrefl _)
  · exact absurd less (List.lt_asymm (ascending.2.1.1 above later))

/-- What a tracker keeps of its nodes. -/
structure KeepsBooks (tracker : Tracker) : Prop where
  openCount_eq : (tracker.recordedAs .opened).encard = tracker.openCount
  prunedCount_eq : (tracker.recordedAs .pruned).encard = tracker.prunedCount
  size_eq : tracker.recorded.encard = tracker.size
  count_add : tracker.openCount + tracker.prunedCount = tracker.size
  /-- The number of pruned nodes is a difference that does not fall below zero. -/
  openCount_le : tracker.openCount ≤ tracker.size
  /-- A prune that is accepted takes one off a count that is not zero. -/
  openCount_of_prune : ∀ coordinate next, tracker.prune coordinate = .ok next →
    tracker.openCount = next.openCount + 1
  ancestor_recorded : ∀ above below, above.isAncestorOf below = true →
    below ∈ tracker.recorded → above ∈ tracker.recorded
  mem_openNodes : ∀ coordinate,
    coordinate ∈ tracker.openNodes ↔ coordinate ∈ tracker.recordedAs .opened
  nodup_openNodes : tracker.openNodes.Nodup
  /-- The open nodes are listed in the lexicographic order of their paths. -/
  openNodes_ascend : tracker.openNodes.Pairwise fun left right => left.path < right.path
  ancestor_before : ∀ above below before after,
    tracker.openNodes = before ++ below :: after → above.isAncestorOf below = true →
      above ∈ tracker.recordedAs .opened → above ∈ before

/-- **A tracker keeps its books.** After any requests of an empty tracker, whether they are
accepted or rejected, the two counts are the numbers of the nodes that it has recorded as open
and as pruned, and neither subtraction falls below zero. With a node all its ancestors are
recorded. Every open node is listed once, in the order of the paths and behind its open
ancestors. -/
theorem session_keepsBooks (requests : List Request) : (session requests).2.KeepsBooks := by
  have balanced := session_balanced requests
  have ascending := pairwise_openNodes (session requests).2
  refine ⟨balanced.encard_opened, balanced.encard_pruned, balanced.encard_recorded,
    Nat.add_sub_of_le balanced.openCount_le_size, balanced.openCount_le_size,
    fun coordinate next accepted => ?_, fun above below => balanced.ancestor_recorded,
    fun coordinate => mem_openNodes, ascending.imp fun less same => ?_, ascending,
    fun above below before after split => ancestor_mem_before split⟩
  · have positive := balanced.openCount_pos (prune_eq_ok accepted).1
    obtain ⟨⟨⟩, -, accepted⟩ := Outcome.bind_eq_ok_iff.mp accepted
    cases accepted
    exact (Nat.sub_add_cancel positive).symm
  · exact List.lt_irrefl _ (same ▸ less)

end Tracker

end MixedInteger
