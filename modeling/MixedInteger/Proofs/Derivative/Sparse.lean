import Mathlib.Algebra.BigOperators.Group.List.Basic
import Mathlib.Algebra.BigOperators.Ring.List
import MixedInteger.Proofs.Scalar.Exact
import MixedInteger.Derivative.Sparse

/-! # Entries of sparse collections

Every operation on sparse collections is described by what it does to the entry
at each index, where an absent entry counts as zero. The sum over the stored
entries at one index is the entry there, since an index is stored once.
-/

namespace MixedInteger

variable {ι K α : Type} [Ord ι] [Std.TransOrd ι]

section Empty

variable [Scalar K]

theorem Sparse.scaled_empty (factor : K) : scaled (∅ : Sparse ι K) factor = ∅ :=
  Std.ExtTreeMap.map_eq_empty_iff.mpr rfl

theorem Sparse.combine_empty (a b : K) : combine (∅ : Sparse ι K) a ∅ b = ∅ := by
  rw [combine, Std.ExtTreeMap.foldl_eq_foldl_toList, scaled_empty]
  rfl

/-- The outer product of no entries adds none. -/
theorem Hessian.addOuter_empty (c : K) : addOuter (∅ : Hessian K) ∅ ∅ c = ∅ := by
  unfold addOuter
  split
  · rfl
  · rw [Std.ExtTreeMap.foldl_eq_foldl_toList]
    rfl

end Empty

variable [ExactScalar K]

namespace Sparse

theorem entry_eq_getD (entries : Sparse ι K) (index : ι) :
    entries.entry index = entries[index]?.getD 0 :=
  Std.ExtTreeMap.getD_eq_getD_getElem?

theorem entry_empty (index : ι) : Sparse.entry (∅ : Sparse ι K) index = 0 :=
  Std.ExtTreeMap.getD_empty

/-- A fold that adds an amount to an entry in every step adds the sum of the
amounts. -/
theorem entry_foldl {step : Sparse ι K → α → Sparse ι K} {amount : α → K} {index : ι}
    (each : ∀ sum item, (step sum item).entry index = sum.entry index + amount item)
    (items : List α) (start : Sparse ι K) :
    (items.foldl step start).entry index = start.entry index + (items.map amount).sum := by
  induction items generalizing start with
  | nil => exact (add_zero _).symm
  | cons item items ih => rw [List.foldl_cons, ih, each, List.map_cons, List.sum_cons, add_assoc]

variable [Std.LawfulEqOrd ι]

/-- Scaling multiplies every entry. -/
theorem entry_scaled (entries : Sparse ι K) (factor : K) (index : ι) :
    (entries.scaled factor).entry index = entries.entry index * factor := by
  rw [entry_eq_getD, entry_eq_getD, scaled, Std.ExtTreeMap.getElem?_map]
  cases entries[index]? with
  | none => exact (zero_mul factor).symm
  | some stored => rfl

variable [DecidableEq ι]

/-- An insertion replaces the entry at its index. -/
theorem entry_insert (entries : Sparse ι K) (stored index : ι) (value : K) :
    Sparse.entry (entries.insert stored value) index =
      if stored = index then value else entries.entry index := by
  unfold entry
  rw [Std.ExtTreeMap.getD_insert]
  simp only [Std.LawfulEqCmp.compare_eq_iff_eq]

theorem entry_insert_empty (stored index : ι) (value : K) :
    Sparse.entry ((∅ : Sparse ι K).insert stored value) index =
      if stored = index then value else 0 := by
  rw [entry_insert, entry_empty]

/-- Accumulation adds to the entry at its index. -/
theorem entry_accumulate (entries : Sparse ι K) (stored index : ι) (amount : K) :
    (entries.accumulate stored amount).entry index =
      entries.entry index + if stored = index then amount else 0 := by
  rw [entry_eq_getD, entry_eq_getD, accumulate, Std.ExtTreeMap.getElem?_alter]
  by_cases same : stored = index
  · subst same
    simp
  · simp [same]

/-- An index is stored once, so the stored values at an index sum up to the entry. -/
theorem sum_toList (entries : Sparse ι K) (index : ι) :
    (entries.toList.map fun stored => if stored.1 = index then stored.2 else 0).sum =
      entries.entry index := by
  have elsewhere {items : List (ι × K)} (absent : ∀ item ∈ items, item.1 ≠ index) :
      (items.map fun stored => if stored.1 = index then stored.2 else 0).sum = 0 := by
    refine List.sum_eq_zero (List.forall_mem_map.mpr fun item member => ?_)
    exact if_neg (absent item member)
  rw [entry_eq_getD]
  cases found : entries[index]? with
  | none =>
      refine elsewhere fun item member same => ?_
      have held := Std.ExtTreeMap.mem_toList_iff_getElem?_eq_some.mp member
      rw [same, found] at held
      cases held
  | some value =>
      obtain ⟨before, after, split⟩ :=
        List.append_of_mem (Std.ExtTreeMap.mem_toList_iff_getElem?_eq_some.mpr found)
      have distinct := entries.distinct_keys_toList
      simp only [split, List.pairwise_append, List.pairwise_cons,
        Std.LawfulEqCmp.compare_eq_iff_eq] at distinct
      obtain ⟨-, ⟨later, -⟩, earlier⟩ := distinct
      rw [split, List.map_append, List.sum_append, List.map_cons, List.sum_cons, if_pos rfl,
        elsewhere fun item member => earlier item member _ List.mem_cons_self,
        elsewhere fun item member same => later item member same.symm, zero_add, add_zero]
      rfl

/-- The entries of a linear combination are those of its parts, combined. -/
theorem entry_combine (left : Sparse ι K) (a : K) (right : Sparse ι K) (b : K) (index : ι) :
    (left.combine a right b).entry index = left.entry index * a + b * right.entry index := by
  rw [combine, Std.ExtTreeMap.foldl_eq_foldl_toList]
  rw [entry_foldl fun sum stored => entry_accumulate sum stored.1 index (b * stored.2),
    entry_scaled, ← sum_toList right, ← List.sum_map_mul_left]
  simp only [mul_ite, mul_zero]

end Sparse

namespace Cell

/-- A cell of the lower triangle stands for its pair in either order. -/
theorem lower_eq_lower_iff {i j row col : VariableId} :
    lower row col = lower i j ↔ row = i ∧ col = j ∨ row = j ∧ col = i := by
  grind [lower]

end Cell

namespace Hessian

/-- What one product contributes to the entry at a pair of variables. The two
orders of the pair are added up. On the diagonal they coincide, which the product
makes good by counting twice. -/
theorem contribution_eq (row col i j : VariableId) (c a b : K) :
    (if Cell.lower row col = Cell.lower i j then
        if row = col then Scalar.two * (c * a * b) else c * a * b else 0) =
      c * ((if row = i then a else 0) * (if col = j then b else 0) +
        (if row = j then a else 0) * (if col = i then b else 0)) := by
  rw [ite_zero_mul_ite_zero, ite_zero_mul_ite_zero]
  simp only [Cell.lower_eq_lower_iff]
  by_cases forward : row = i ∧ col = j
  · obtain ⟨rfl, rfl⟩ := forward
    by_cases diagonal : row = col
    · simp only [diagonal, and_self, or_self, ↓reduceIte, Scalar.two_eq]
      ring
    · simp only [diagonal, and_self, true_or, false_and, ↓reduceIte]
      ring
  · by_cases backward : row = j ∧ col = i
    · obtain ⟨rfl, rfl⟩ := backward
      have diagonal : row ≠ col := fun same => forward ⟨same, same.symm⟩
      simp only [diagonal, and_self, or_true, false_and, ↓reduceIte]
      ring
    · simp only [forward, backward, or_self, ↓reduceIte]
      ring

/-- Adding a symmetric outer product adds its entry at every pair of variables. -/
theorem symmetricEntry_addOuter (hessian : Hessian K) (u v : Gradient K) (c : K)
    (i j : VariableId) :
    symmetricEntry (addOuter hessian u v c) i j =
      symmetricEntry hessian i j + c * (u.entry i * v.entry j + u.entry j * v.entry i) := by
  unfold addOuter
  split
  · rename_i zero
    rw [beq_iff_eq.mp zero, zero_mul, add_zero]
  · simp only [Std.ExtTreeMap.foldl_eq_foldl_toList, symmetricEntry]
    have product (first : VariableId × K) (inner : Hessian K) (second : VariableId × K) :
        Sparse.entry (Sparse.accumulate inner (Cell.lower first.1 second.1)
            (if first.1 = second.1 then Scalar.two * (c * first.2 * second.2)
              else c * first.2 * second.2)) (Cell.lower i j) =
          Sparse.entry inner (Cell.lower i j) +
            c * ((if first.1 = i then first.2 else 0) * (if second.1 = j then second.2 else 0) +
              (if first.1 = j then first.2 else 0) * (if second.1 = i then second.2 else 0)) := by
      rw [Sparse.entry_accumulate, contribution_eq]
    have row (outer : Hessian K) (first : VariableId × K) :
        Sparse.entry (v.toList.foldl (fun inner second =>
            Sparse.accumulate inner (Cell.lower first.1 second.1)
              (if first.1 = second.1 then Scalar.two * (c * first.2 * second.2)
                else c * first.2 * second.2)) outer) (Cell.lower i j) =
          Sparse.entry outer (Cell.lower i j) +
            c * ((if first.1 = i then first.2 else 0) * v.entry j +
              (if first.1 = j then first.2 else 0) * v.entry i) := by
      rw [Sparse.entry_foldl (product first), List.sum_map_mul_left, List.sum_map_add,
        List.sum_map_mul_left, List.sum_map_mul_left, Sparse.sum_toList, Sparse.sum_toList]
    rw [Sparse.entry_foldl row, List.sum_map_mul_left, List.sum_map_add, List.sum_map_mul_right,
      List.sum_map_mul_right, Sparse.sum_toList, Sparse.sum_toList]

end Hessian

end MixedInteger
