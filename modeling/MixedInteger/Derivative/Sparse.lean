import MixedInteger.Numeric
import Std.Data.ExtTreeMap

/-! # Sparse collections of partial derivatives

Derivatives are kept as finite maps from an index to a scalar, ordered by the
index. An absent entry counts as zero, yet a stored zero is an entry: sparsity
is structural, and no operation inspects an entry to decide whether to keep it.
-/

namespace MixedInteger

/-- Scalars by index, with absent entries counting as zero. -/
abbrev Sparse (ι K : Type) [Ord ι] := Std.ExtTreeMap ι K

namespace Sparse

variable {ι K : Type} [Ord ι] [Std.TransOrd ι] [Scalar K]

/-- The entry at an index, zero where none is stored. -/
def entry (entries : Sparse ι K) (index : ι) : K := entries.getD index 0

/-- All entries times a factor. -/
def scaled (entries : Sparse ι K) (factor : K) : Sparse ι K :=
  entries.map fun _ stored => stored * factor

/-- Add an amount to the entry at an index, which becomes a stored entry. -/
def accumulate (entries : Sparse ι K) (index : ι) (amount : K) : Sparse ι K :=
  entries.alter index fun stored => some (stored.getD 0 + amount)

/-- The linear combination with the weight `a` on the left and `b` on the right. -/
def combine (left : Sparse ι K) (a : K) (right : Sparse ι K) (b : K) : Sparse ι K :=
  right.foldl (fun sum index stored => sum.accumulate index (b * stored)) (left.scaled a)

/-- Whether all stored entries pass a test. -/
def allEntries (entries : Sparse ι K) (test : K → Bool) : Bool :=
  entries.toList.all fun stored => test stored.2

end Sparse

/-- A sparse row of first partial derivatives. -/
abbrev Gradient (K : Type) := Sparse VariableId K

/-- A position in a symmetric matrix of second derivatives. -/
structure Cell where
  /-- The row, the larger index of a lower-triangle position. -/
  row : VariableId
  col : VariableId
  deriving DecidableEq, Repr

namespace Cell

/-- Cells are ordered by row, then by column. -/
instance : Ord Cell := ⟨compareLex (compareOn row) (compareOn col)⟩

instance : Std.TransOrd Cell :=
  inferInstanceAs (Std.TransCmp (compareLex (compareOn row) (compareOn col)))

/-- Only a cell itself compares equal to it. -/
theorem compare_eq_eq_iff {left right : Cell} : compare left right = .eq ↔ left = right := by
  obtain ⟨row, col⟩ := left
  obtain ⟨otherRow, otherCol⟩ := right
  change (compare row otherRow).then (compare col otherCol) = .eq ↔ _
  rw [Ordering.then_eq_eq, Std.compare_eq_iff_eq, Std.compare_eq_iff_eq, mk.injEq]

instance : Std.LawfulEqOrd Cell where
  compare_self := compare_eq_eq_iff.mpr rfl
  eq_of_compare := compare_eq_eq_iff.mp

/-- The lower-triangle cell of an unordered pair of variables. -/
def lower (i j : VariableId) : Cell := if j ≤ i then ⟨i, j⟩ else ⟨j, i⟩

end Cell

/-- The lower triangle of a symmetric matrix of second partial derivatives. -/
abbrev Hessian (K : Type) := Sparse Cell K

namespace Hessian

variable {K : Type} [Scalar K]

/-- The entry at a pair of variables, in either order. -/
def symmetricEntry (hessian : Hessian K) (i j : VariableId) : K :=
  Sparse.entry hessian (Cell.lower i j)

/-- Add `factor * (u vᵀ + v uᵀ)`. A diagonal product is met once and counts
twice. A zero factor adds nothing, not even structural entries. -/
def addOuter (hessian : Hessian K) (u v : Gradient K) (factor : K) : Hessian K :=
  if factor == 0 then hessian
  else
    u.foldl (fun outer i a =>
      v.foldl (fun inner j b =>
        let product := factor * a * b
        Sparse.accumulate inner (Cell.lower i j)
          (if i = j then Scalar.two * product else product)) outer) hessian

end Hessian

end MixedInteger
