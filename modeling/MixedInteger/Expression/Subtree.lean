import MixedInteger.Expression.Graph

/-! # Subexpressions

The subtree of a root is everything the root is computed from. It is found by a
depth-first search with an explicit stack. Each step takes one index off the
stack, and an index is put on it only when it is met for the first time, so the
indices not yet met and those on the stack together become fewer at every step.
-/

namespace MixedInteger

/-- A search in progress. -/
structure Search where
  /-- Which indices have been met. -/
  met : Array Bool
  /-- The indices that have been met and not yet explored, latest first. -/
  waiting : List NodeIdx

namespace Search

/-- A search that has met the root alone. -/
def start (root : NodeIdx) : Search :=
  ⟨(Array.replicate (root + 1) false).setIfInBounds root true, [root]⟩

/-- Meet an index, which waits from then on if it is new. -/
def meet (search : Search) (idx : NodeIdx) : Except Violation Search :=
  match search.met[idx]? with
  | some true => .ok search
  | some false => .ok ⟨search.met.setIfInBounds idx true, idx :: search.waiting⟩
  | none => .error (.indexOutOfBounds search.met.size idx)

/-- What is left of a search: what it has not met, and what waits. -/
def unexplored (search : Search) : Nat :=
  search.met.toList.count false + search.waiting.length

/-- Meeting an index leaves as much of a search as before. -/
theorem unexplored_meet {search next : Search} {idx : NodeIdx}
    (met : search.meet idx = .ok next) : next.unexplored = search.unexplored := by
  unfold meet at met
  split at met
  · cases met
    rfl
  · rename_i fresh
    cases met
    rw [← Array.getElem?_toList] at fresh
    obtain ⟨inside, entry⟩ := List.getElem?_eq_some_iff.mp fresh
    have present : 0 < search.met.toList.count false :=
      List.count_pos_iff.mpr (entry ▸ List.getElem_mem inside)
    have fewer : (search.met.toList.set idx true).count false + 1 =
        search.met.toList.count false := by
      rw [List.count_set inside, entry]
      exact Nat.sub_add_cancel present
    simp only [unexplored, Array.toList_setIfInBounds, List.length_cons]
    omega
  · cases met

/-- Meeting several indices leaves as much of a search as before. -/
theorem unexplored_foldlM_meet {indices : List NodeIdx} {search next : Search}
    (met : indices.foldlM meet search = .ok next) : next.unexplored = search.unexplored := by
  induction indices generalizing search with
  | nil =>
      cases met
      rfl
  | cons idx rest ih =>
      rw [List.foldlM_cons] at met
      cases first : search.meet idx with
      | error broken =>
          rw [first] at met
          cases met
      | ok middle =>
          rw [first] at met
          exact (ih met).trans (unexplored_meet first)

end Search

namespace Graph

variable {K : Type}

/-- Explore every waiting index, and what it is computed from. -/
def explore (graph : Graph K) (search : Search) : Except Violation (Array Bool) :=
  match waits : search.waiting with
  | [] => .ok search.met
  | idx :: waiting =>
      match graph.node idx with
      | .error broken => .error broken
      | .ok node =>
          match met : node.children.foldlM Search.meet ⟨search.met, waiting⟩ with
          | .error broken => .error broken
          | .ok next =>
              have : next.unexplored < search.unexplored := by
                rw [Search.unexplored_foldlM_meet met]
                simp only [Search.unexplored, waits, List.length_cons]
                omega
              graph.explore next
termination_by search.unexplored

/-- The indices a root is computed from, the root included, in ascending order. -/
def subtree (graph : Graph K) (root : NodeIdx) : Except Violation (List NodeIdx) := do
  let _ ← graph.node root
  let met ← graph.explore (Search.start root)
  return (List.range met.size).filter fun idx => met.getD idx false

end Graph

end MixedInteger
