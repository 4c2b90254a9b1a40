import MixedInteger.Expression.Subtree
import MixedInteger.Proofs.Expression.Construction
import Mathlib.Logic.Relation

/-! # Reachability

The search for a subtree finds exactly the nodes that can be reached from its
root through children (`Graph.subtree_spec`). Its answer ascends, so it lists the
children of a node before the node.
-/

namespace MixedInteger

variable {K : Type}

namespace Graph

/-- Whether one index is a child of the node at another. -/
def HasChild (graph : Graph K) (parent child : NodeIdx) : Prop :=
  ∃ node, graph.get? parent = some node ∧ child ∈ node.children

/-- Whether one index is below another or the same. -/
def Reaches (graph : Graph K) : NodeIdx → NodeIdx → Prop :=
  Relation.ReflTransGen graph.HasChild

/-- Whether a variable occurs below a root. -/
def Occurs (graph : Graph K) (root : NodeIdx) (id : VariableId) : Prop :=
  ∃ idx, graph.Reaches root idx ∧ graph.kind? idx = some (.leaf id)

/-- Whatever is below a root comes before it, the root apart. -/
theorem Reaches.le {graph : Graph K} (wellFormed : graph.WellFormed) {root idx : NodeIdx}
    (reaches : graph.Reaches root idx) : idx ≤ root := by
  induction reaches with
  | refl => exact Nat.le_refl _
  | tail _ child ih =>
      obtain ⟨node, held, member⟩ := child
      exact Nat.le_trans (Nat.le_of_lt (wellFormed.child_lt held member)) ih

/-- Below a root of the graph there are nodes of the graph only. -/
theorem Reaches.exists_node {graph : Graph K} (wellFormed : graph.WellFormed)
    {root idx : NodeIdx} (inside : root < graph.size) (reaches : graph.Reaches root idx) :
    ∃ node, graph.get? idx = some node :=
  get?_eq_some_of_lt (Nat.lt_of_le_of_lt (reaches.le wellFormed) inside)

/-- Whatever is below a root, the root apart, is a child of something that is. -/
theorem Reaches.eq_or_parent {graph : Graph K} {root idx : NodeIdx}
    (reaches : graph.Reaches root idx) :
    idx = root ∨ ∃ parent, graph.Reaches root parent ∧ graph.HasChild parent idx := by
  rcases Relation.ReflTransGen.cases_tail reaches with same | ⟨parent, above, child⟩
  · exact Or.inl same
  · exact Or.inr ⟨parent, above, child⟩

end Graph

namespace Search

variable {search next : Search} {idx : NodeIdx}

/-- Meeting an index inside the table marks it, and makes it wait if it is new. -/
theorem meet_spec (inside : idx < search.met.size) :
    ∃ next, search.meet idx = .ok next ∧ next.met.size = search.met.size ∧
      (∀ query, next.met[query]? = some true ↔ search.met[query]? = some true ∨ query = idx) ∧
      ∀ query, query ∈ next.waiting ↔
        query ∈ search.waiting ∨ query = idx ∧ search.met[query]? ≠ some true := by
  have held : search.met[idx]? = some search.met[idx] := Array.getElem?_eq_getElem inside
  unfold meet
  cases known : search.met[idx] with
  | true =>
      rw [known] at held
      rw [held]
      refine ⟨search, rfl, rfl, fun query => ⟨Or.inl, ?_⟩, fun query => ⟨Or.inl, ?_⟩⟩
      · rintro (old | rfl)
        · exact old
        · exact held
      · rintro (old | ⟨rfl, new⟩)
        · exact old
        · exact absurd held new
  | false =>
      rw [known] at held
      rw [held]
      refine ⟨_, rfl, Array.size_setIfInBounds, fun query => ?_, fun query => ?_⟩
      · by_cases same : query = idx
        · subst same
          simp only [Array.getElem?_setIfInBounds_self, inside, ↓reduceIte, or_true]
        · simp only [Array.getElem?_setIfInBounds_ne (Ne.symm same), same, or_false]
      · by_cases same : query = idx
        · subst same
          simp [held]
        · simp only [List.mem_cons, same, false_or, false_and, or_false]

/-- Meeting several indices inside the table marks all of them, and makes those
wait that are new. -/
theorem foldlM_meet_spec {indices : List NodeIdx}
    (inside : ∀ idx ∈ indices, idx < search.met.size) :
    ∃ next, indices.foldlM meet search = .ok next ∧ next.met.size = search.met.size ∧
      (∀ query, next.met[query]? = some true ↔
        search.met[query]? = some true ∨ query ∈ indices) ∧
      ∀ query, query ∈ next.waiting ↔
        query ∈ search.waiting ∨ query ∈ indices ∧ search.met[query]? ≠ some true := by
  induction indices generalizing search with
  | nil => exact ⟨search, rfl, rfl, by simp, by simp⟩
  | cons idx rest ih =>
      obtain ⟨middle, first, middleSize, middleMet, middleWaiting⟩ :=
        meet_spec (inside idx List.mem_cons_self)
      obtain ⟨next, others, nextSize, nextMet, nextWaiting⟩ := @ih middle
        fun later member => middleSize ▸ inside later (List.mem_cons_of_mem _ member)
      refine ⟨next, by rw [List.foldlM_cons, first]; exact others, nextSize.trans middleSize,
        fun query => ?_, fun query => ?_⟩
      · rw [nextMet, middleMet, List.mem_cons, or_assoc]
      · rw [nextWaiting, middleWaiting, List.mem_cons, ne_eq, ne_eq, middleMet]
        by_cases same : query = idx <;> simp [same]

/-- The invariant of the search below a root: what is met can be reached, and the
children of what has been explored have been met. -/
structure Below (graph : Graph K) (root : NodeIdx) (search : Search) : Prop where
  size : search.met.size = root + 1
  root_met : search.met[root]? = some true
  /-- Only what is below the root has been met. -/
  reaches : ∀ idx, search.met[idx]? = some true → graph.Reaches root idx
  /-- Only what has been met waits. -/
  waiting_met : ∀ idx ∈ search.waiting, search.met[idx]? = some true
  /-- The children of what does not wait any more have been met. -/
  closed : ∀ idx child, search.met[idx]? = some true → idx ∉ search.waiting →
    graph.HasChild idx child → search.met[child]? = some true

/-- At the start of a search only the root has been met. -/
theorem below_start (graph : Graph K) (root : NodeIdx) : (start root).Below graph root := by
  have met : ∀ idx, (start root).met[idx]? = some true ↔ idx = root := by
    intro idx
    by_cases same : idx = root
    · subst same
      simp [start]
    · simp [start, Ne.symm same, Array.getElem?_replicate, same]
  constructor
  · simp [start]
  · exact (met root).mpr rfl
  · intro idx found
    rw [(met idx).mp found]
    exact Relation.ReflTransGen.refl
  · intro idx member
    exact (met idx).mpr (List.mem_singleton.mp member)
  · intro idx child found explored
    exact absurd (List.mem_singleton.mpr ((met idx).mp found)) explored

/-- When nothing waits, everything below the root has been met. -/
theorem Below.met_iff {graph : Graph K} {root : NodeIdx} (below : search.Below graph root)
    (finished : search.waiting = []) (idx : NodeIdx) :
    search.met[idx]? = some true ↔ graph.Reaches root idx := by
  refine ⟨below.reaches idx, fun reaches => ?_⟩
  induction reaches with
  | refl => exact below.root_met
  | tail _ child ih => exact below.closed _ _ ih (by simp [finished]) child

/-- The indices that are listed are those that are marked in the table. -/
theorem mem_marked_iff {met : Array Bool} :
    idx ∈ ((List.range met.size).filter fun query => met.getD query false) ↔
      met[idx]? = some true := by
  rw [List.mem_filter, List.mem_range, Array.getD_eq_getD_getElem?]
  constructor
  · rintro ⟨bound, found⟩
    rw [Array.getElem?_eq_getElem bound] at found ⊢
    exact congrArg some found
  · intro found
    exact ⟨(Array.getElem?_eq_some_iff.mp found).1, by rw [found]; rfl⟩

/-- Exploring a waiting index keeps the invariant. -/
theorem Below.explore {graph : Graph K} {root : NodeIdx} (wellFormed : graph.WellFormed)
    (below : search.Below graph root) {waiting : List NodeIdx}
    (waits : search.waiting = idx :: waiting) {node : Node K} (held : graph.get? idx = some node) :
    ∃ next, node.children.foldlM meet ⟨search.met, waiting⟩ = .ok next ∧ next.Below graph root := by
  have idxMet : search.met[idx]? = some true := below.waiting_met idx (by simp [waits])
  have idxReached : graph.Reaches root idx := below.reaches idx idxMet
  have inside : ∀ child ∈ node.children, child < search.met.size := by
    intro child member
    have lower := wellFormed.child_lt held member
    exact below.size ▸ Nat.lt_succ_of_lt (Nat.lt_of_lt_of_le lower (idxReached.le wellFormed))
  obtain ⟨next, met, size, marked, waitingIff⟩ :=
    @foldlM_meet_spec ⟨search.met, waiting⟩ node.children inside
  refine ⟨next, met, size.trans below.size, (marked root).mpr (Or.inl below.root_met),
    fun query found => ?_, fun query member => ?_, fun query child found explored parent => ?_⟩
  · rcases (marked query).mp found with old | member
    · exact below.reaches query old
    · exact idxReached.tail ⟨node, held, member⟩
  · rcases (waitingIff query).mp member with old | ⟨member, -⟩
    · exact (marked query).mpr (Or.inl (below.waiting_met query (by simp [waits, old])))
    · exact (marked query).mpr (Or.inr member)
  · have notWaiting := (waitingIff query).not.mp explored
    push Not at notWaiting
    by_cases same : query = idx
    · subst same
      obtain ⟨parentNode, parentHeld, member⟩ := parent
      rw [held] at parentHeld
      cases parentHeld
      exact (marked child).mpr (Or.inr member)
    · -- an index that waits no more and is not explored now was explored earlier
      have old : search.met[query]? = some true := by
        rcases (marked query).mp found with old | member
        · exact old
        · exact notWaiting.2 member
      refine (marked child).mpr (Or.inl (below.closed query child old ?_ parent))
      rw [waits, List.mem_cons, not_or]
      exact ⟨same, notWaiting.1⟩

end Search

namespace Graph

/-- The search ends, and marks exactly what is below its root. -/
theorem explore_spec {graph : Graph K} (wellFormed : graph.WellFormed) {root : NodeIdx}
    (inside : root < graph.size) (search : Search) (below : search.Below graph root) :
    ∃ met, graph.explore search = .ok met ∧ met.size = root + 1 ∧
      ∀ idx, met[idx]? = some true ↔ graph.Reaches root idx := by
  fun_induction explore graph search with
  | case1 search finished => exact ⟨_, rfl, below.size, below.met_iff finished⟩
  | case2 search idx waiting waits broken absent =>
      have reached := below.reaches idx (below.waiting_met idx (by simp [waits]))
      obtain ⟨node, held⟩ := reached.exists_node wellFormed inside
      rw [node_eq_ok_iff.mpr held] at absent
      cases absent
  | case3 search idx waiting waits node held broken failed =>
      obtain ⟨next, met, -⟩ := below.explore wellFormed waits (node_eq_ok_iff.mp held)
      rw [met] at failed
      cases failed
  | case4 search idx waiting waits node held next met _ ih =>
      obtain ⟨same, metSame, kept⟩ := below.explore wellFormed waits (node_eq_ok_iff.mp held)
      rw [met] at metSame
      cases metSame
      exact ih kept

/-- An order in which everything below a root is computed. -/
structure EvaluationOrder (graph : Graph K) (root : NodeIdx) (order : List NodeIdx) : Prop where
  ascending : order.Pairwise (· < ·)
  mem_iff : ∀ idx, idx ∈ order ↔ graph.Reaches root idx

/-- The subtree of a root of the graph is found, and is an evaluation order. -/
theorem subtree_spec {graph : Graph K} (wellFormed : graph.WellFormed) {root : NodeIdx}
    (inside : root < graph.size) :
    ∃ order, graph.subtree root = .ok order ∧ graph.EvaluationOrder root order := by
  obtain ⟨node, held⟩ := get?_eq_some_of_lt inside
  obtain ⟨met, explored, size, marked⟩ :=
    explore_spec wellFormed inside (Search.start root) (Search.below_start graph root)
  refine ⟨(List.range met.size).filter fun idx => met.getD idx false, ?_, ?_, ?_⟩
  · unfold subtree
    rw [node_eq_ok_iff.mpr held, explored]
    rfl
  · exact List.Pairwise.filter _ List.pairwise_lt_range
  · exact fun idx => Search.mem_marked_iff.trans (marked idx)

namespace EvaluationOrder

variable {graph : Graph K} {root : NodeIdx} {order before after : List NodeIdx} {idx : NodeIdx}

/-- What is listed before an index is smaller. -/
theorem before_lt (valid : graph.EvaluationOrder root order)
    (split : order = before ++ idx :: after) {query : NodeIdx} (member : query ∈ before) :
    query < idx := by
  have ascending := valid.ascending
  rw [split, List.pairwise_append] at ascending
  exact ascending.2.2 query member idx List.mem_cons_self

theorem not_mem_before (valid : graph.EvaluationOrder root order)
    (split : order = before ++ idx :: after) : idx ∉ before :=
  fun member => Nat.lt_irrefl _ (valid.before_lt split member)

/-- What is below the root and comes before an index is listed before it. -/
theorem mem_before (valid : graph.EvaluationOrder root order)
    (split : order = before ++ idx :: after) {query : NodeIdx}
    (reaches : graph.Reaches root query) (lower : query < idx) : query ∈ before := by
  have member := (valid.mem_iff query).mpr reaches
  have ascending := valid.ascending
  rw [split, List.pairwise_append, List.pairwise_cons] at ascending
  rw [split, List.mem_append, List.mem_cons] at member
  rcases member with member | same | member
  · exact member
  · exact absurd same (Nat.ne_of_lt lower)
  · exact absurd (ascending.2.1.1 query member) (Nat.not_lt_of_gt lower)

/-- Every listed index is below the root. -/
theorem reaches (valid : graph.EvaluationOrder root order)
    (split : order = before ++ idx :: after) : graph.Reaches root idx :=
  (valid.mem_iff idx).mp (by simp [split])

/-- An index splits the order into what is lower and what is not. -/
theorem mem_before_iff (valid : graph.EvaluationOrder root order)
    (split : order = before ++ idx :: after) {query : NodeIdx} :
    query ∈ before ↔ query ∈ order ∧ query < idx := by
  constructor
  · intro member
    exact ⟨split ▸ List.mem_append_left _ member, valid.before_lt split member⟩
  · rintro ⟨member, lower⟩
    exact valid.mem_before split ((valid.mem_iff query).mp member) lower

/-- What is listed from an index on is what is not smaller. -/
theorem mem_due_iff (valid : graph.EvaluationOrder root order)
    (split : order = before ++ idx :: after) {query : NodeIdx} :
    query ∈ idx :: after ↔ query ∈ order ∧ idx ≤ query := by
  constructor
  · intro member
    have ascending := valid.ascending
    rw [split, List.pairwise_append, List.pairwise_cons] at ascending
    refine ⟨split ▸ List.mem_append_right _ member, ?_⟩
    rcases List.mem_cons.mp member with rfl | later
    · exact Nat.le_refl _
    · exact Nat.le_of_lt (ascending.2.1.1 query later)
  · rintro ⟨member, notLower⟩
    rw [split] at member
    refine (List.mem_append.mp member).resolve_left fun before => ?_
    exact Nat.not_lt_of_le notLower (valid.before_lt split before)

/-- The children of a listed node are listed before it. -/
theorem child_mem_before (valid : graph.EvaluationOrder root order)
    (wellFormed : graph.WellFormed) (split : order = before ++ idx :: after) {node : Node K}
    (held : graph.get? idx = some node) {child : NodeIdx} (member : child ∈ node.children) :
    child ∈ before :=
  valid.mem_before split ((valid.reaches split).tail ⟨node, held, member⟩)
    (wellFormed.child_lt held member)

theorem root_mem (valid : graph.EvaluationOrder root order) : root ∈ order :=
  (valid.mem_iff root).mpr Relation.ReflTransGen.refl

/-- The root is listed last, because everything below it has a smaller index. -/
theorem getLast?_eq (valid : graph.EvaluationOrder root order) (wellFormed : graph.WellFormed) :
    order.getLast? = some root := by
  obtain ⟨before, after, split⟩ := List.append_of_mem valid.root_mem
  cases after with
  | nil => rw [split, List.getLast?_concat]
  | cons later rest =>
      have ascending := valid.ascending
      rw [split, List.pairwise_append, List.pairwise_cons] at ascending
      have higher : root < later := ascending.2.1.1 later List.mem_cons_self
      have listed : later ∈ order := by simp [split]
      exact absurd (((valid.mem_iff later).mp listed).le wellFormed) (Nat.not_le.mpr higher)

end EvaluationOrder

end Graph

end MixedInteger
