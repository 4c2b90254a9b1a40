import Mathlib.Algebra.GroupWithZero.Nat
import Mathlib.Order.Bounds.Defs
import MixedInteger.Proofs.Expression.Reachability
import MixedInteger.Proofs.Expression.Representation

/-! # The order by structural depth

The structural depth of a node is the weight of the heaviest path that goes down from the
node, on which an operator and a constant weigh one each and a variable nothing
(`Graph.Levelled.isGreatest_depthAt`). A node is therefore deeper than its children, and the
order by depth, ties broken by index, lists every node behind them
(`Graph.topologicalOrder_valid`). In a graph that has taken all `2 ^ 32` indices a depth may
have wrapped around, and the order may list a node before its child
(`Graph.topologicalOrder_fullChain`).
-/

namespace MixedInteger

variable {K : Type}

/-- What a node adds to the weight of a path that goes through it. -/
def NodeKind.weight : NodeKind K → Nat
  | leaf _ => 0
  | constant _ => 1
  | operator _ _ => 1

namespace Graph

variable {graph : Graph K} {idx parent child : NodeIdx}

/-! ## Paths that go down -/

/-- The weight of the node at an index. There is none outside the graph. -/
def weightAt (graph : Graph K) (idx : NodeIdx) : Nat :=
  ((graph.kind? idx).map NodeKind.weight).getD 0

/-- The weight of a sequence of nodes. -/
def pathWeight (graph : Graph K) (path : List NodeIdx) : Nat := (path.map graph.weightAt).sum

/-- The weights of the paths that start at a node and go on from a node to one of its
children. A path may end anywhere. -/
def pathWeights (graph : Graph K) (idx : NodeIdx) : Set Nat :=
  { weight | ∃ below, (idx :: below).IsChain graph.HasChild ∧
    weight = graph.pathWeight (idx :: below) }

/-- A path weighs as much as its first node and the rest of it. -/
theorem pathWeight_cons (graph : Graph K) (idx : NodeIdx) (below : List NodeIdx) :
    graph.pathWeight (idx :: below) = graph.weightAt idx + graph.pathWeight below :=
  List.sum_cons

/-- The weight at an index is that of the node there. -/
theorem weightAt_of_get? {node : Node K} (held : graph.get? idx = some node) :
    graph.weightAt idx = node.kind.weight := by
  rw [weightAt, kind?_eq held]
  rfl

/-- A node with a child is an operator. -/
theorem HasChild.weightAt_eq (isChild : graph.HasChild parent child) :
    graph.weightAt parent = 1 := by
  obtain ⟨node, held, member⟩ := isChild
  rw [weightAt_of_get? held]
  unfold Node.children at member
  cases kind : node.kind with
  | leaf id =>
      rw [kind] at member
      cases member
  | constant value => rfl
  | operator op children => rfl

/-! ## Depths as weights of paths -/

namespace Levelled

/-- An operator is deeper than its children. -/
theorem depthAt_lt (levelled : graph.Levelled) (isChild : graph.HasChild parent child) :
    graph.depthAt child < graph.depthAt parent := by
  obtain ⟨node, held, member⟩ := isChild
  rw [levelled parent node held]
  unfold Node.children at member
  cases kind : node.kind with
  | leaf id =>
      rw [kind] at member
      cases member
  | constant value =>
      rw [kind] at member
      cases member
  | operator op children =>
      rw [kind] at member
      exact Nat.lt_succ_of_le (List.le_max?_getD_of_mem (List.mem_map_of_mem member))

/-- The depth of a node is its own weight, or comes from one of its children. -/
theorem depthAt_cases (levelled : graph.Levelled) (inside : idx < graph.size) :
    graph.depthAt idx = graph.weightAt idx ∨
      ∃ child, graph.HasChild idx child ∧
        graph.depthAt idx = graph.weightAt idx + graph.depthAt child := by
  obtain ⟨node, held⟩ := get?_eq_some_of_lt inside
  rw [levelled idx node held, weightAt_of_get? held]
  cases kind : node.kind with
  | leaf id => exact .inl rfl
  | constant value => exact .inl rfl
  | operator op children =>
      rw [NodeKind.depthOver, NodeKind.weight]
      cases deepest : (children.map graph.depthAt).max? with
      | none => exact .inl rfl
      | some depth =>
          obtain ⟨child, member, rfl⟩ := List.mem_map.mp (List.max?_mem deepest)
          refine .inr ⟨child, ⟨node, held, ?_⟩, Nat.add_comm _ _⟩
          rwa [Node.children, kind]

/-- A node is at least as deep as it weighs. -/
theorem weightAt_le (levelled : graph.Levelled) (inside : idx < graph.size) :
    graph.weightAt idx ≤ graph.depthAt idx := by
  rcases levelled.depthAt_cases inside with alone | ⟨child, -, above⟩
  · exact Nat.le_of_eq alone.symm
  · exact above ▸ Nat.le_add_right _ _

/-- No path that goes down from a node is heavier than the node is deep. -/
theorem pathWeight_le (levelled : graph.Levelled) (wellFormed : graph.WellFormed)
    {below : List NodeIdx} (inside : idx < graph.size)
    (path : (idx :: below).IsChain graph.HasChild) :
    graph.pathWeight (idx :: below) ≤ graph.depthAt idx := by
  induction below generalizing idx with
  | nil => exact levelled.weightAt_le inside
  | cons child below ih =>
      obtain ⟨isChild, rest⟩ := List.isChain_cons_cons.mp path
      obtain ⟨node, held, member⟩ := isChild
      have lower : graph.pathWeight (child :: below) ≤ graph.depthAt child :=
        ih (Nat.lt_trans (wellFormed.child_lt held member) inside) rest
      have deeper : graph.depthAt child < graph.depthAt idx :=
        levelled.depthAt_lt ⟨node, held, member⟩
      have weight : graph.weightAt idx = 1 := HasChild.weightAt_eq ⟨node, held, member⟩
      rw [pathWeight_cons, weight]
      omega

/-- Some path that goes down from a node weighs as much as the node is deep. -/
theorem depthAt_mem_pathWeights (levelled : graph.Levelled) (wellFormed : graph.WellFormed)
    (inside : idx < graph.size) : graph.depthAt idx ∈ graph.pathWeights idx := by
  induction idx using Nat.strongRecOn with
  | ind idx ih =>
      rcases levelled.depthAt_cases inside with alone | ⟨child, isChild, above⟩
      · exact ⟨[], .singleton idx, alone⟩
      · obtain ⟨node, held, member⟩ := isChild
        have lower : child < idx := wellFormed.child_lt held member
        obtain ⟨below, path, heaviest⟩ := ih child lower (Nat.lt_trans lower inside)
        refine ⟨child :: below, .cons_cons ⟨node, held, member⟩ path, ?_⟩
        rw [above, heaviest, ← pathWeight_cons]

/-- The depth of a node is the weight of the heaviest path that goes down from it. -/
theorem isGreatest_depthAt (levelled : graph.Levelled) (wellFormed : graph.WellFormed)
    (inside : idx < graph.size) : IsGreatest (graph.pathWeights idx) (graph.depthAt idx) := by
  refine ⟨levelled.depthAt_mem_pathWeights wellFormed inside, ?_⟩
  rintro weight ⟨below, path, rfl⟩
  exact levelled.pathWeight_le wellFormed inside path

end Levelled

/-! ## Sorting by depth -/

/-- Whether one index comes before another by depth, ties broken by index. -/
def Precedes (graph : Graph K) (left right : NodeIdx) : Prop :=
  graph.depthAt left < graph.depthAt right ∨
    graph.depthAt left = graph.depthAt right ∧ left < right

instance (graph : Graph K) (left right : NodeIdx) : Decidable (graph.Precedes left right) :=
  inferInstanceAs (Decidable (_ ∨ _))

/-- Of two indices at most one precedes the other. -/
theorem Precedes.asymm {left right : NodeIdx} (precedes : graph.Precedes left right) :
    ¬ graph.Precedes right left := by
  rintro (deeper | ⟨level, lower⟩)
  · rcases precedes with less | ⟨same, -⟩
    · exact Nat.lt_asymm less deeper
    · exact Nat.lt_irrefl _ (same ▸ deeper)
  · rcases precedes with less | ⟨-, before⟩
    · exact Nat.lt_irrefl _ (level ▸ less)
    · exact Nat.lt_asymm before lower

/-- Every index is listed once. -/
theorem topologicalOrder_perm (graph : Graph K) :
    graph.topologicalOrder.Perm (List.range graph.size) := List.mergeSort_perm _ _

/-- The order ascends strictly, because no index is listed twice. -/
theorem pairwise_topologicalOrder (graph : Graph K) :
    graph.topologicalOrder.Pairwise graph.Precedes := by
  have distinct : graph.topologicalOrder.Nodup :=
    graph.topologicalOrder_perm.nodup_iff.mpr List.nodup_range
  have sorted : graph.topologicalOrder.Pairwise fun left right =>
      (graph.depths.getD left 0 < graph.depths.getD right 0
        || (graph.depths.getD left 0 == graph.depths.getD right 0 && left ≤ right)) = true := by
    refine List.pairwise_mergeSort (fun first second third => ?_) (fun first second => ?_) _
    · simp only [Bool.or_eq_true, Bool.and_eq_true, decide_eq_true_eq, beq_iff_eq,
        UInt32.lt_iff_toNat_lt, ← UInt32.toNat_inj]
      omega
    · simp only [Bool.or_eq_true, Bool.and_eq_true, decide_eq_true_eq, beq_iff_eq,
        UInt32.lt_iff_toNat_lt, ← UInt32.toNat_inj]
      omega
  refine (sorted.and distinct).imp fun {left right} ⟨ordered, different⟩ => ?_
  simp only [Bool.or_eq_true, Bool.and_eq_true, decide_eq_true_eq, beq_iff_eq,
    UInt32.lt_iff_toNat_lt, ← UInt32.toNat_inj] at ordered
  exact ordered.imp_right fun ⟨level, le⟩ => ⟨level, Nat.lt_of_le_of_ne le different⟩

/-- No other order of the indices ascends. -/
theorem topologicalOrder_unique {order : List NodeIdx}
    (listed : order.Perm (List.range graph.size)) (ascending : order.Pairwise graph.Precedes) :
    graph.topologicalOrder = order :=
  (graph.topologicalOrder_perm.trans listed.symm).eq_of_pairwise
    (fun _ _ _ _ first second => absurd second first.asymm)
    graph.pairwise_topologicalOrder ascending

/-- In an order that ascends, what precedes a listed index is listed before it. -/
theorem mem_before_of_precedes {before after : List NodeIdx}
    (split : graph.topologicalOrder = before ++ parent :: after) (inside : child < graph.size)
    (precedes : graph.Precedes child parent) : child ∈ before := by
  have listed : child ∈ graph.topologicalOrder :=
    graph.topologicalOrder_perm.mem_iff.mpr (List.mem_range.mpr inside)
  have ascending := graph.pairwise_topologicalOrder
  rw [split, List.pairwise_append, List.pairwise_cons] at ascending
  rw [split, List.mem_append, List.mem_cons] at listed
  rcases listed with earlier | rfl | later
  · exact earlier
  · exact absurd precedes precedes.asymm
  · exact absurd precedes (ascending.2.1.1 child later).asymm

/-- **The order by depth is an order of evaluation.** In every graph that insertions build it
lists each index once, ascending strictly by structural depth and then by index. If there are
fewer than `2 ^ 32` nodes, it lists every child before all nodes that it is a child of. An
operator is then deeper than its children, and the depth of a node is the weight of the
heaviest path that goes down from the node, an operator and a constant counting one each. -/
theorem topologicalOrder_valid (built : graph.Built) :
    graph.topologicalOrder.Perm (List.range graph.size) ∧
    graph.topologicalOrder.Pairwise graph.Precedes ∧
    (∀ idx, idx < graph.size →
      (graph.vertexDepth idx).map UInt32.toNat = .ok (graph.depthAt idx)) ∧
    (graph.size < 2 ^ 32 →
      (∀ parent child, graph.HasChild parent child →
        ∀ before after, graph.topologicalOrder = before ++ parent :: after → child ∈ before) ∧
      (∀ parent child, graph.HasChild parent child →
        graph.depthAt child < graph.depthAt parent) ∧
      ∀ idx, idx < graph.size → IsGreatest (graph.pathWeights idx) (graph.depthAt idx) ∧
        graph.depthAt idx ≤ idx + 1) := by
  have measured := built.measured
  have wellFormed := built.wellFormed
  refine ⟨graph.topologicalOrder_perm, graph.pairwise_topologicalOrder,
    fun idx inside => vertexDepth_eq_depthAt measured.depths_size inside, fun small => ?_⟩
  have levelled := measured.levelled wellFormed small
  refine ⟨fun parent child isChild before after split => ?_,
    fun parent child isChild => levelled.depthAt_lt isChild, fun idx inside => ?_⟩
  · have deeper := levelled.depthAt_lt isChild
    obtain ⟨node, held, member⟩ := isChild
    have inside : child < graph.size :=
      Nat.lt_trans (wellFormed.child_lt held member) (lt_size_of_get?_eq_some held)
    exact mem_before_of_precedes split inside (.inl deeper)
  · obtain ⟨node, held⟩ := get?_eq_some_of_lt inside
    exact ⟨levelled.isGreatest_depthAt wellFormed inside, measured.depthAt_le wellFormed held⟩

/-- The graph of `2 * x0` and `exp x0`, in which the constant comes before the variable. -/
def scaledAndRaised : Graph Float where
  id := ⟨0, 0⟩
  nodes := #[
    { uid := ⟨0⟩, idx := some 0, graph := some ⟨0, 0⟩, kind := .constant 2.0 },
    { uid := ⟨1⟩, idx := some 1, graph := some ⟨0, 0⟩, kind := .leaf 0 },
    { uid := ⟨2⟩, idx := some 2, graph := some ⟨0, 0⟩, kind := .operator .product [0, 1] },
    { uid := ⟨3⟩, idx := some 3, graph := some ⟨0, 0⟩, kind := .operator (.unary .exp) [1] }]
  depths := #[1, 0, 2, 1]

theorem built_scaledAndRaised : scaledAndRaised.Built := by
  let factor : Node Float := { uid := ⟨0⟩, kind := .constant 2.0 }
  let leaf : Node Float := { uid := ⟨1⟩, kind := .leaf 0 }
  let product : Node Float := { uid := ⟨2⟩, kind := .operator .product [0, 1] }
  let exponential : Node Float := { uid := ⟨3⟩, kind := .operator (.unary .exp) [1] }
  have first : Built _ := (Built.empty ⟨0, 0⟩ none).insert (rfl : factor.kind.checkArity = _) rfl
  have second : Built _ := first.insert (rfl : leaf.kind.checkArity = _) rfl
  have third : Built _ := second.insert (rfl : product.kind.checkArity = _) rfl
  exact third.insert (rfl : exponential.kind.checkArity = _) rfl

/-- The product is the last one, behind its variable and its constant, and its heaviest path
goes down to the constant. -/
theorem topologicalOrder_valid_scaledAndRaised :
    scaledAndRaised.Built ∧ scaledAndRaised.size < 2 ^ 32 ∧ scaledAndRaised.HasChild 2 0 ∧
      scaledAndRaised.topologicalOrder = [1, 0, 3, 2] ∧
      0 ∈ [1, 0, 3] ∧ IsGreatest (scaledAndRaised.pathWeights 2) 2 := by
  have isChild : scaledAndRaised.HasChild 2 0 := ⟨_, rfl, by decide⟩
  have small : scaledAndRaised.size < 2 ^ 32 := by decide
  have order : scaledAndRaised.topologicalOrder = [1, 0, 3, 2] :=
    topologicalOrder_unique (by decide) (by decide)
  obtain ⟨-, -, -, valid⟩ := topologicalOrder_valid built_scaledAndRaised
  obtain ⟨before, -, depths⟩ := valid small
  exact ⟨built_scaledAndRaised, small, isChild, order, before 2 0 isChild [1, 0, 3] [] order,
    (depths 2 (by decide)).1⟩

/-! ## A chain through all indices -/

/-- What the nodes of a chain stand for: a constant, and negations of the node before. -/
def link : Nat → NodeKind Float
  | 0 => .constant 1.0
  | below + 1 => .operator .negation [below]

/-- A constant and negations above it, each of the node before. -/
def chain (count : Nat) : Graph Float := ofKinds link count

/-- A chain has room for as many nodes as there are indices. -/
theorem built_chain {count : Nat} (fits : count ≤ 2 ^ 32) :
    (chain count).Built ∧ (chain count).size = count ∧
      ∀ idx, idx < count → (chain count).kind? idx = some (link idx) := by
  refine built_ofKinds fits (fun idx _ => ?_) fun idx _ child member => ?_
  · cases idx <;> rfl
  · cases idx with
    | zero => cases member
    | succ below =>
        rw [List.mem_singleton.mp member]
        exact Nat.lt_succ_self below

/-- The depths of a chain count up until they wrap around. -/
theorem depthAt_chain {count : Nat} (fits : count ≤ 2 ^ 32) (inside : idx < count) :
    (chain count).depthAt idx = (idx + 1) % 2 ^ 32 := by
  obtain ⟨built, -, kinds⟩ := built_chain fits
  induction idx with
  | zero =>
      obtain ⟨node, held, kind⟩ := Option.map_eq_some_iff.mp (kinds 0 inside)
      rw [built.measured.depthAt_eq_mod 0 node held, kind]
      rfl
  | succ below ih =>
      obtain ⟨node, held, kind⟩ := Option.map_eq_some_iff.mp (kinds (below + 1) inside)
      have lower := ih (Nat.lt_of_succ_lt inside)
      rw [built.measured.depthAt_eq_mod (below + 1) node held, kind]
      change ((chain count).depthAt below + 1) % 2 ^ 32 = _
      rw [lower, Nat.mod_add_mod]

/-- The last node of a chain that takes all indices comes before its child. -/
theorem exists_split_chain {count : Nat} (full : count = 2 ^ 32) :
    (chain count).HasChild 4294967295 4294967294 ∧ (chain count).depthAt 4294967295 = 0 ∧
      ∃ before after, (chain count).topologicalOrder = before ++ 4294967295 :: after ∧
        4294967294 ∉ before := by
  have fits : count ≤ 2 ^ 32 := Nat.le_of_eq full
  obtain ⟨-, size, kinds⟩ := built_chain fits
  have last : (4294967295 : Nat) < count := full ▸ by decide
  have top : (chain count).depthAt 4294967295 = 0 := depthAt_chain fits last
  have below : (chain count).depthAt 4294967294 = 4294967295 :=
    depthAt_chain fits (Nat.lt_of_succ_lt last)
  obtain ⟨node, held, kind⟩ := Option.map_eq_some_iff.mp (kinds 4294967295 last)
  refine ⟨⟨node, held, ?_⟩, top, ?_⟩
  · rw [Node.children, kind]
    exact List.mem_singleton_self _
  · have listed : 4294967295 ∈ (chain count).topologicalOrder := by
      rw [(chain count).topologicalOrder_perm.mem_iff, size]
      exact List.mem_range.mpr last
    obtain ⟨before, after, split⟩ := List.append_of_mem listed
    refine ⟨before, after, split, fun earlier => ?_⟩
    have ascending := (chain count).pairwise_topologicalOrder
    rw [split, List.pairwise_append] at ascending
    have precedes := ascending.2.2 4294967294 earlier 4294967295 List.mem_cons_self
    unfold Precedes at precedes
    rw [top, below] at precedes
    omega

/-- **In a full graph a node may come before its child.** A chain of negations above a
constant takes all indices. Its last node is one deeper than the largest word, so that its
depth is zero, and the order by depth lists it before its child. -/
theorem topologicalOrder_fullChain :
    (chain 4294967296).Built ∧ (chain 4294967296).size = 4294967296 ∧
      (chain 4294967296).HasChild 4294967295 4294967294 ∧
      (chain 4294967296).depthAt 4294967295 = 0 ∧
      ∃ before after, (chain 4294967296).topologicalOrder = before ++ 4294967295 :: after ∧
        4294967294 ∉ before :=
  ⟨(built_chain (Nat.le_refl _)).1, (built_chain (Nat.le_refl _)).2.1, exists_split_chain rfl⟩

end Graph

end MixedInteger
