import Mathlib.Data.Finset.Card
import Mathlib.Data.Finset.Lattice.Fold
import Mathlib.Order.Lattice.Nat
import MixedInteger.Proofs.Expression.Reachability

/-! # Values that are needed

What the nodes of an evaluation order read, and which operators still have to be kept when
the visit of a node is due. A layout counts the uses of every node, and the slots that it
hands out, in 32-bit words. Whether these suffice for a root is a matter of its subtree alone
(`Graph.FitsWords`).
-/

namespace MixedInteger

variable {K : Type}

namespace Graph

/-- The children of the node at an index. -/
def childrenAt (graph : Graph K) (idx : NodeIdx) : List NodeIdx :=
  ((graph.get? idx).map Node.children).getD []

/-- The children at an index are those of the node there. -/
theorem childrenAt_eq {graph : Graph K} {idx : NodeIdx} {node : Node K}
    (held : graph.get? idx = some node) : graph.childrenAt idx = node.children := by
  rw [childrenAt, held, Option.map_some, Option.getD_some]

/-- What a sequence of nodes reads, one entry for each use. -/
def usesOf (graph : Graph K) (order : List NodeIdx) : List NodeIdx :=
  order.flatMap graph.childrenAt

/-- The first node reads its children. -/
theorem usesOf_cons (graph : Graph K) (idx : NodeIdx) (rest : List NodeIdx) :
    graph.usesOf (idx :: rest) = graph.childrenAt idx ++ graph.usesOf rest :=
  List.flatMap_cons

/-- Whether there is an operator at an index. -/
def isOperator (graph : Graph K) (idx : NodeIdx) : Bool :=
  ((graph.kind? idx).bind NodeKind.operator?).isSome

/-- The operators of an order. -/
def operatorsOf (graph : Graph K) (order : List NodeIdx) : List NodeIdx :=
  order.filter graph.isOperator

/-- The variables of an order, one entry for each leaf. -/
def variablesOf (graph : Graph K) (order : List NodeIdx) : List VariableId :=
  order.filterMap fun idx => (graph.kind? idx).bind NodeKind.leafId?

/-- The operators before an index whose values are read there or later. -/
def liveAt (graph : Graph K) (order : List NodeIdx) (idx : NodeIdx) : Finset NodeIdx :=
  {child ∈ (graph.operatorsOf order).toFinset | child < idx ∧
    ∃ reader ∈ graph.operatorsOf order, idx ≤ reader ∧ child ∈ graph.childrenAt reader}

/-- The largest number of values kept at once, that of the operator at work
included. -/
def peakOf (graph : Graph K) (order : List NodeIdx) : Nat :=
  (graph.operatorsOf order).toFinset.sup fun idx => 1 + (graph.liveAt order idx).card

/-- The visited operators whose values are needed: by one of the uses to come, or
as the root. -/
def awaited (graph : Graph K) (root : NodeIdx) (before uses : List NodeIdx) : Finset NodeIdx :=
  {idx ∈ (graph.operatorsOf before).toFinset | idx ∈ uses ∨ idx = root}

/-- Whether 32-bit words can count what the layout of a root counts: how often each node is a
child below the root, and how many values are kept at once. -/
structure FitsWords (graph : Graph K) (root : NodeIdx) : Prop where
  uses_le : ∀ order, graph.subtree root = .ok order → ∀ idx,
    (graph.usesOf order).count idx ≤ 2 ^ 32
  peak_lt : ∀ order, graph.subtree root = .ok order → graph.peakOf order < 2 ^ 32

/-- Whether a value is no longer needed when the visit of an index is due: the
operator there and those after it do not read it, and it is not the root's. -/
def Expired (graph : Graph K) (root : NodeIdx) (order : List NodeIdx) (child idx : NodeIdx) :
    Prop :=
  child ≠ root ∧ ∀ reader ∈ order, idx ≤ reader → child ∉ graph.childrenAt reader

section Orders

variable {graph : Graph K} {root idx child : NodeIdx} {order before after uses : List NodeIdx}

/-- There is an operator at an index exactly when the node there is of that kind. -/
theorem isOperator_iff : graph.isOperator idx = true ↔
    ∃ op children, graph.kind? idx = some (.operator op children) := by
  unfold isOperator
  cases graph.kind? idx with
  | none => exact ⟨nofun, nofun⟩
  | some kind => cases kind <;> simp [NodeKind.operator?]

theorem mem_operatorsOf :
    idx ∈ graph.operatorsOf order ↔ idx ∈ order ∧ graph.isOperator idx = true :=
  List.mem_filter

/-- The children at an index are those of the node there. -/
theorem childrenAt_eq_of_kind? {kind : NodeKind K} (known : graph.kind? idx = some kind) :
    graph.childrenAt idx = kind.children := by
  obtain ⟨node, held, rfl⟩ := Option.map_eq_some_iff.mp known
  exact childrenAt_eq held

/-- The children at an index are what is one step below it. -/
theorem mem_childrenAt_iff : child ∈ graph.childrenAt idx ↔ graph.HasChild idx child := by
  unfold childrenAt HasChild
  cases graph.get? idx with
  | none => exact ⟨nofun, nofun⟩
  | some node => exact ⟨fun member => ⟨node, rfl, member⟩, fun ⟨_, rfl, member⟩ => member⟩

/-- Children come before their parents. -/
theorem WellFormed.lt_of_mem_childrenAt (wellFormed : graph.WellFormed)
    (member : child ∈ graph.childrenAt idx) : child < idx := by
  obtain ⟨node, held, member⟩ := mem_childrenAt_iff.mp member
  exact wellFormed.child_lt held member

/-- Only operators have children. -/
theorem isOperator_of_mem_childrenAt (member : child ∈ graph.childrenAt idx) :
    graph.isOperator idx = true := by
  obtain ⟨node, held, member⟩ := mem_childrenAt_iff.mp member
  unfold Node.children at member
  refine isOperator_iff.mpr ?_
  rw [kind?_eq held]
  cases kind : node.kind with
  | operator op children => exact ⟨op, children, rfl⟩
  | leaf id | constant value =>
      rw [kind] at member
      cases member

/-- One more visit adds one operator at most. -/
theorem operatorsOf_concat (before : List NodeIdx) (idx : NodeIdx) :
    graph.operatorsOf (before ++ [idx]) =
      graph.operatorsOf before ++ if graph.isOperator idx then [idx] else [] := by
  unfold operatorsOf
  rw [List.filter_append, List.filter_singleton]
  cases graph.isOperator idx <;> rfl

/-- A leaf is one entry of the variables, and no other node is any. -/
theorem variablesOf_singleton {kind : NodeKind K} (known : graph.kind? idx = some kind) :
    graph.variablesOf [idx] = kind.leafId?.toList := by
  unfold variablesOf
  rw [List.filterMap_cons, known]
  cases kind <;> rfl

/-- What is awaited has been visited, and is used later or is the root. -/
theorem mem_awaited : idx ∈ graph.awaited root before uses ↔
    idx ∈ graph.operatorsOf before ∧ (idx ∈ uses ∨ idx = root) := by
  rw [awaited, Finset.mem_filter, List.mem_toFinset]

/-- Visiting an operator makes it awaited, if it is needed. -/
theorem awaited_concat_operator (operator : graph.isOperator idx = true)
    (needed : idx ∈ uses ∨ idx = root) :
    graph.awaited root (before ++ [idx]) uses =
      Insert.insert idx (graph.awaited root before uses) := by
  ext query
  rw [Finset.mem_insert, mem_awaited, mem_awaited, operatorsOf_concat, operator, if_pos rfl,
    List.mem_append, List.mem_singleton, or_and_right, or_comm]
  refine or_congr_left (and_iff_left_of_imp ?_)
  rintro rfl
  exact needed

/-- Visiting a leaf makes nothing awaited. -/
theorem awaited_concat_leaf (leaf : graph.isOperator idx = false) :
    graph.awaited root (before ++ [idx]) uses = graph.awaited root before uses := by
  unfold awaited
  rw [operatorsOf_concat, leaf, if_neg Bool.false_ne_true, List.append_nil]

/-- A use that is not the last one leaves its child awaited. -/
theorem awaited_cons_of_not_last
    (kept : child ∈ graph.operatorsOf before → child ∈ uses) :
    graph.awaited root before (child :: uses) = graph.awaited root before uses := by
  ext query
  rw [mem_awaited, mem_awaited, List.mem_cons]
  refine and_congr_right fun visited => or_congr_left (or_iff_right_of_imp ?_)
  rintro rfl
  exact kept visited

/-- A visited operator with a use to come is awaited. -/
theorem awaited_cons_of_last (visited : child ∈ graph.operatorsOf before) :
    graph.awaited root before (child :: uses) =
      Insert.insert child (graph.awaited root before uses) := by
  ext query
  rw [Finset.mem_insert, mem_awaited, mem_awaited, List.mem_cons, or_assoc, and_or_left]
  refine or_congr_left (and_iff_right_of_imp ?_)
  rintro rfl
  exact visited

/-- When the visit of an index is due, the awaited operators are those whose values
are read there or later. -/
theorem awaited_eq_liveAt (wellFormed : graph.WellFormed)
    (valid : graph.EvaluationOrder root order) (split : order = before ++ idx :: after) :
    graph.awaited root before (graph.usesOf (idx :: after)) = graph.liveAt order idx := by
  ext query
  rw [mem_awaited, liveAt, Finset.mem_filter, List.mem_toFinset, mem_operatorsOf, mem_operatorsOf,
    valid.mem_before_iff split, usesOf, List.mem_flatMap]
  constructor
  · rintro ⟨⟨⟨member, lower⟩, operator⟩, ⟨reader, due, child⟩ | rfl⟩
    · obtain ⟨readerMember, later⟩ := (valid.mem_due_iff split).mp due
      exact ⟨⟨member, operator⟩, lower, reader,
        mem_operatorsOf.mpr ⟨readerMember, isOperator_of_mem_childrenAt child⟩, later, child⟩
    · exact absurd lower (Nat.not_lt_of_le ((valid.reaches split).le wellFormed))
  · rintro ⟨⟨member, operator⟩, lower, reader, readerMember, later, child⟩
    exact ⟨⟨⟨member, lower⟩, operator⟩, Or.inl ⟨reader,
      (valid.mem_due_iff split).mpr ⟨(mem_operatorsOf.mp readerMember).1, later⟩, child⟩⟩

/-- Whatever is visited is needed afterwards. -/
theorem mem_usesOf_or_eq_root (wellFormed : graph.WellFormed)
    (valid : graph.EvaluationOrder root order) (split : order = before ++ idx :: after) :
    idx ∈ graph.usesOf after ∨ idx = root := by
  rcases (valid.reaches split).eq_or_parent with same | ⟨parent, above, child⟩
  · exact Or.inr same
  · have read := mem_childrenAt_iff.mpr child
    have lower := wellFormed.lt_of_mem_childrenAt read
    have due := (valid.mem_due_iff split).mpr
      ⟨(valid.mem_iff parent).mpr above, Nat.le_of_lt lower⟩
    have later := (List.mem_cons.mp due).resolve_left (Nat.ne_of_gt lower)
    exact Or.inl (List.mem_flatMap.mpr ⟨parent, later, read⟩)

/-- An operator finds no more values in use than there are where the most are. -/
theorem card_liveAt_le_peakOf (operator : graph.isOperator idx = true) (member : idx ∈ order) :
    1 + (graph.liveAt order idx).card ≤ graph.peakOf order :=
  Finset.le_sup (f := fun idx => 1 + (graph.liveAt order idx).card)
    (List.mem_toFinset.mpr (mem_operatorsOf.mpr ⟨member, operator⟩))

/-- An operator finds the values of its children in use, besides its own. -/
theorem card_lt_peakOf (wellFormed : graph.WellFormed) (valid : graph.EvaluationOrder root order)
    (member : idx ∈ order) (operator : graph.isOperator idx = true) {operands : Finset NodeIdx}
    (read : ∀ child ∈ operands, child ∈ graph.childrenAt idx)
    (operators : ∀ child ∈ operands, graph.isOperator child = true) :
    operands.card < graph.peakOf order := by
  have kept : operands ⊆ graph.liveAt order idx := by
    intro child isChild
    have reaches : graph.Reaches root child :=
      ((valid.mem_iff idx).mp member).tail (mem_childrenAt_iff.mp (read child isChild))
    rw [liveAt, Finset.mem_filter, List.mem_toFinset]
    exact ⟨mem_operatorsOf.mpr ⟨(valid.mem_iff child).mpr reaches, operators child isChild⟩,
      wellFormed.lt_of_mem_childrenAt (read child isChild), idx,
      mem_operatorsOf.mpr ⟨member, operator⟩, Nat.le_refl idx, read child isChild⟩
  have peak := card_liveAt_le_peakOf operator member
  have fewer := Finset.card_le_card kept
  omega

/-- Where words can count the values kept at once, they can count those that are awaited when
the visit of an operator is due, its own included. -/
theorem room_of_peak_lt (wellFormed : graph.WellFormed) (valid : graph.EvaluationOrder root order)
    (split : order = before ++ idx :: after) (peak : graph.peakOf order < 2 ^ 32)
    (operator : graph.isOperator idx = true) :
    1 + (graph.awaited root before (graph.usesOf (idx :: after))).card < 2 ^ 32 := by
  rw [awaited_eq_liveAt wellFormed valid split]
  refine Nat.lt_of_le_of_lt (card_liveAt_le_peakOf operator ?_) peak
  exact split ▸ List.mem_append_right _ List.mem_cons_self

/-- There is one evaluation order. -/
theorem EvaluationOrder.unique {other : List NodeIdx} (first : graph.EvaluationOrder root order)
    (second : graph.EvaluationOrder root other) : order = other := by
  have listed : order.Perm other :=
    (List.perm_ext_iff_of_nodup (first.ascending.imp Nat.ne_of_lt)
      (second.ascending.imp Nat.ne_of_lt)).mpr fun idx =>
        (first.mem_iff idx).trans (second.mem_iff idx).symm
  exact listed.eq_of_pairwise (fun _ _ _ _ less more => absurd less (Nat.lt_asymm more))
    first.ascending second.ascending

/-- Where the root reads every node before it, directly or not, these nodes are the order. -/
theorem evaluationOrder_range (wellFormed : graph.WellFormed)
    (reached : ∀ idx, idx < root → graph.Reaches root idx) :
    graph.EvaluationOrder root (List.range (root + 1)) := by
  refine ⟨List.pairwise_lt_range, fun idx => ?_⟩
  rw [List.mem_range, Nat.lt_succ_iff_lt_or_eq]
  constructor
  · rintro (lower | rfl)
    · exact reached idx lower
    · exact .refl
  · exact fun reaches => Nat.lt_or_eq_of_le (reaches.le wellFormed)

/-- What has to fit into words can be checked on any evaluation order. -/
theorem EvaluationOrder.fitsWords (valid : graph.EvaluationOrder root order)
    (wellFormed : graph.WellFormed) (inside : root < graph.size)
    (uses : ∀ idx, (graph.usesOf order).count idx ≤ 2 ^ 32)
    (peak : graph.peakOf order < 2 ^ 32) : graph.FitsWords root := by
  have same : ∀ other, graph.subtree root = .ok other → other = order := by
    intro other found
    obtain ⟨listed, answered, others⟩ := subtree_spec wellFormed inside
    cases found.symm.trans answered
    exact others.unique valid
  exact ⟨fun other found => same other found ▸ uses, fun other found => same other found ▸ peak⟩

end Orders

end Graph

end MixedInteger
