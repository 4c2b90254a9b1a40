import Mathlib.Order.Basic
import MixedInteger.Model.Problem
import MixedInteger.Scalar.Binary64

/-! # Bounds of machine numbers

The check of bounds refuses an undefined bound and a lower bound that is greater than
the upper one. Machine numbers are ordered apart from the undefined one, so what the
check lets through is in order (`Bounds.isValid_iff_ordered`).
-/

namespace MixedInteger

namespace Binary64

open Float.Model (UnpackedFloat)

/-- Machine numbers compare the other way round when they are swapped. -/
theorem compare_swap (x y : UnpackedFloat) : y.compare x = (x.compare y).map Ordering.swap := by
  have magnitudes (e d : Int) (m n : Nat) : (compare d e).then (compare n m) =
      ((compare e d).then (compare m n)).swap := by
    rw [Ordering.swap_then, Int.compare_swap, Nat.compare_swap]
  rcases x with (_ | _) | _ | _ | ⟨_ | _, m, e, _⟩ <;>
    rcases y with (_ | _) | _ | _ | ⟨_ | _, n, d, _⟩
  -- Magnitudes only matter between two finite numbers of one sign.
  case finite.negative.finite.negative => exact congrArg (some ·.swap) (magnitudes e d m n)
  case finite.positive.finite.positive => exact congrArg some (magnitudes e d m n)
  all_goals rfl

theorem isSome_compare {x y : UnpackedFloat} (defined : x.isNaN = false)
    (definedOther : y.isNaN = false) : (x.compare y).isSome = true := by
  cases x with
  | notANumber => cases defined
  | infinity sign | zero sign | finite sign =>
      cases y with
      | notANumber => cases definedOther
      | infinity other | zero other | finite other => cases sign <;> cases other <;> rfl

/-- Defined machine numbers are totally ordered. -/
theorem not_gt_iff_le {x y : Float} (defined : x.isNaN = false) (definedOther : y.isNaN = false) :
    ¬ x > y ↔ x ≤ y := by
  obtain ⟨order, compared⟩ := Option.isSome_iff_exists.mp (isSome_compare defined definedOther)
  have gt_iff : x > y ↔ y.toModel.unpack.lt x.toModel.unpack = true := decide_eq_true_iff
  have le_iff : x ≤ y ↔ x.toModel.unpack.le y.toModel.unpack = true := decide_eq_true_iff
  rw [gt_iff, le_iff, UnpackedFloat.lt, UnpackedFloat.le, compare_swap, compared]
  cases order <;> decide

end Binary64

namespace Bounds

/-- No bound is undefined, and the lower bound is at most the upper one. -/
structure Ordered (bounds : Bounds Float) : Prop where
  lower_defined : ∀ lower, bounds.lower = some lower → lower.isNaN = false
  upper_defined : ∀ upper, bounds.upper = some upper → upper.isNaN = false
  lower_le : ∀ lower upper, bounds.lower = some lower → bounds.upper = some upper → lower ≤ upper

/-- The check lets through exactly the bounds that are in order. -/
theorem isValid_iff_ordered {bounds : Bounds Float} : bounds.isValid = true ↔ bounds.Ordered := by
  have checks : bounds.isValid = true ↔
      (∀ lower, bounds.lower = some lower → lower.isNaN = false) ∧
      (∀ upper, bounds.upper = some upper → upper.isNaN = false) ∧
      ∀ lower upper, bounds.lower = some lower → bounds.upper = some upper → ¬ lower > upper := by
    obtain ⟨_ | lower, _ | upper⟩ := bounds <;>
      simp [isValid, Scalar.isNaN, Scalar.exceeds, and_assoc]
  rw [checks]
  constructor
  · rintro ⟨lowerDefined, upperDefined, within⟩
    exact ⟨lowerDefined, upperDefined, fun lower upper isLower isUpper =>
      (Binary64.not_gt_iff_le (lowerDefined lower isLower) (upperDefined upper isUpper)).mp
        (within lower upper isLower isUpper)⟩
  · rintro ⟨lowerDefined, upperDefined, within⟩
    exact ⟨lowerDefined, upperDefined, fun lower upper isLower isUpper =>
      (Binary64.not_gt_iff_le (lowerDefined lower isLower) (upperDefined upper isUpper)).mpr
        (within lower upper isLower isUpper)⟩

end Bounds

end MixedInteger
