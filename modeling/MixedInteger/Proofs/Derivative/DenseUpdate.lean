import MixedInteger.Proofs.Derivative.Sparse
import MixedInteger.Proofs.Derivative.Support

/-! # Sparse updates as dense ones

Outer products and linear combinations of sparse collections visit stored entries only, and of
a symmetric matrix there is one cell for a pair of variables in either order. Read at every pair,
an absent entry counting as zero, they are the updates `H + c (u vᵀ + v uᵀ)` and `a H + b M` of
the whole matrices, whatever variables the rows `u` and `v` have in common
(`Hessian.updates_entrywise`).
-/

namespace MixedInteger

namespace Hessian

variable {K : Type} [ExactScalar K]

/-- **Sparse updates are dense ones.** With exact scalars, an outer product adds
`c * (u i * v j + u j * v i)` to the entry at every pair of variables, on the diagonal as well.
What it stores are the cells of all pairs of a variable of `u` with one of `v`, and none if the
factor is zero, so that a matrix without cells above the diagonal stays one. The entries of a
linear combination are the linear combinations of the entries, at every cell of a matrix and
at every variable of a row. -/
theorem updates_entrywise (hessian other : Hessian K) (u v : Gradient K) (a b c : K) :
    (∀ i j, (hessian.addOuter u v c).symmetricEntry i j =
      hessian.symmetricEntry i j + c * (u.entry i * v.entry j + u.entry j * v.entry i)) ∧
    (∀ cell, cell ∈ hessian.addOuter u v c ↔
      cell ∈ hessian ∨ c ≠ 0 ∧ ∃ i ∈ u, ∃ j ∈ v, cell = Cell.lower i j) ∧
    ((∀ cell ∈ hessian, cell.col ≤ cell.row) →
      ∀ cell ∈ hessian.addOuter u v c, cell.col ≤ cell.row) ∧
    (∀ cell, Sparse.entry (Sparse.combine hessian a other b) cell =
      a * Sparse.entry hessian cell + b * Sparse.entry other cell) ∧
    ∀ id, (u.combine a v b).entry id = a * u.entry id + b * v.entry id := by
  refine ⟨symmetricEntry_addOuter hessian u v c, fun cell => ?_, fun lower => ?_,
    fun cell => ?_, fun id => ?_⟩
  · rw [mem_addOuter, beq_eq_false_iff_ne]
  · exact within_addOuter lower (fun i _ j _ => Cell.col_lower_le i j) c
  · rw [Sparse.entry_combine, mul_comm]
  · rw [Sparse.entry_combine, mul_comm]

noncomputable section Overlapping

/-- A row for the variables zero and one. -/
def firstRow : Gradient ℝ := ((∅ : Gradient ℝ).insert 0 1).insert 1 (-1)

/-- A row for the variables one and two. -/
def secondRow : Gradient ℝ := ((∅ : Gradient ℝ).insert 1 1).insert 2 (-1)

/-- A matrix with one entry beside the diagonal. -/
def crossTerm : Hessian ℝ := (∅ : Hessian ℝ).insert ⟨1, 0⟩ 1

/-- The rows share a variable, whose product is met once and counts twice, and a product is met
in the other order of the pair whose entry is stored. -/
theorem updates_entrywise_overlapping :
    (∀ cell ∈ crossTerm, cell.col ≤ cell.row) ∧
      (∀ cell ∈ crossTerm.addOuter firstRow secondRow 2, cell.col ≤ cell.row) ∧
      (crossTerm.addOuter firstRow secondRow 2).symmetricEntry 1 1 = -4 ∧
      (crossTerm.addOuter firstRow secondRow 2).symmetricEntry 0 1 = 3 ∧
      (firstRow.combine 2 secondRow 3).entry 1 = 1 := by
  have lower : Sparse.Within crossTerm fun cell => cell.col ≤ cell.row :=
    Sparse.within_insert_empty (by decide) 1
  obtain ⟨entries, -, kept, -, combined⟩ :=
    updates_entrywise crossTerm ∅ firstRow secondRow 2 3 2
  have first (id : VariableId) :
      firstRow.entry id = if 1 = id then -1 else if 0 = id then 1 else 0 := by
    rw [firstRow, Sparse.entry_insert, Sparse.entry_insert_empty]
  have second (id : VariableId) :
      secondRow.entry id = if 2 = id then -1 else if 1 = id then 1 else 0 := by
    rw [secondRow, Sparse.entry_insert, Sparse.entry_insert_empty]
  have stored (i j : VariableId) :
      crossTerm.symmetricEntry i j = if Cell.mk 1 0 = Cell.lower i j then 1 else 0 :=
    Sparse.entry_insert_empty _ _ _
  refine ⟨lower, kept lower, ?_, ?_, ?_⟩
  · rw [entries, stored]
    norm_num [first, second, Cell.lower]
  · rw [entries, stored]
    norm_num [first, second, Cell.lower]
  · rw [combined]
    norm_num [first, second]

end Overlapping

end Hessian

end MixedInteger
