/-
  Sluice.Proofs.Number.Addition

  Adding to a zero. The exact sum of a zero and a finite double is that double in units, and
  rounding leaves it alone; what is not finite is handed on. So a zero of either sign is neutral,
  except that a zero added to it may change sign: the sum of two zeros is negative only if both
  are.

  Main statement: two sums that start at zeros of different signs end alike, since the sign of a
  zero is all that can be told apart on the way.
-/

import Sluice.Number.Arithmetic
import Sluice.Proofs.Number.Exact

namespace Sluice.Number

variable {x y z : Number}

-- ============================================================================
-- Zeros
-- ============================================================================

@[simp] theorem isZero_zero (negative : Bool) : isZero (zero negative) = true := by
  cases negative <;> rfl

theorem isFinite_of_isZero (h : isZero x = true) : isFinite x = true := by
  rw [isFinite, beq_iff_eq.1 h]
  decide

theorem not_nan_of_isFinite (h : isFinite x = true) : isNaN x = false := by
  simp only [isFinite, decide_eq_true_eq] at h
  simpa only [isNaN, decide_eq_false_iff_not, Nat.not_lt] using Nat.le_of_lt h

theorem signedUnits_of_isZero (h : isZero x = true) : signedUnits x = 0 := by
  rw [signedUnits, (isZero_iff (isFinite_of_isZero h)).1 h]
  split <;> rfl

/-- A finite double other than a zero is read back from its units. -/
theorem ofUnits_signedUnits (hx : isFinite x = true) (hzero : ¬ isZero x = true) :
    signedUnits x ≠ 0 ∧
      ofUnits (decide (signedUnits x < 0)) (signedUnits x).natAbs = x := by
  have hunits : units x ≠ 0 := mt (isZero_iff hx).2 hzero
  have hsign : decide (signedUnits x < 0) = isNegative x := by
    unfold signedUnits
    cases isNegative x with
    | false => simp
    | true => simp; omega
  have habs : (signedUnits x).natAbs = units x := by
    unfold signedUnits
    split <;> simp
  refine ⟨fun h => hunits (by rw [← habs, h]; rfl), ?_⟩
  rw [hsign, habs, ofUnits, nearest, nearestBits_units hx, ofMagnitudeBits_self]

-- ============================================================================
-- Sums
-- ============================================================================

/-- A zero is neutral on the left, but for the sign of another zero. -/
theorem add_of_isZero (hx : isZero x = true) (y : Number) :
    x + y = if isZero y then zero (isNegative x && isNegative y) else y := by
  have hfinite := isFinite_of_isZero hx
  show propagate x y _ = _
  rw [propagate, if_neg (by rw [not_nan_of_isFinite hfinite]; exact Bool.false_ne_true)]
  by_cases hy : isFinite y = true
  · simp only [not_nan_of_isFinite hy, hfinite, hy, signedUnits_of_isZero hx, Int.zero_add,
      Bool.false_eq_true, Bool.not_true, if_false]
    by_cases hzero : isZero y = true
    · rw [if_pos (signedUnits_of_isZero hzero), if_pos hzero]
    · obtain ⟨hunits, hback⟩ := ofUnits_signedUnits hy hzero
      rw [if_neg hunits, if_neg hzero, hback]
  · have hzero : ¬ isZero y = true := mt isFinite_of_isZero hy
    simp [hfinite, hy, hzero]

/-- The same double, or zeros that may differ in sign. -/
def Alike (x y : Number) : Prop :=
  x = y ∨ (isZero x = true ∧ isZero y = true)

theorem Alike.refl (x : Number) : Alike x x :=
  .inl rfl

theorem alike_zero (negative negative' : Bool) : Alike (zero negative) (zero negative') :=
  .inr ⟨isZero_zero negative, isZero_zero negative'⟩

theorem Alike.add (h : Alike x y) (z : Number) : Alike (x + z) (y + z) := by
  rcases h with rfl | ⟨hx, hy⟩
  · exact .refl _
  · rw [add_of_isZero hx, add_of_isZero hy]
    split
    · exact alike_zero _ _
    · exact .refl z

/-- Sums that start alike end alike. -/
theorem Alike.foldl_add (h : Alike x y) (zs : List Number) :
    Alike (zs.foldl (· + ·) x) (zs.foldl (· + ·) y) := by
  induction zs generalizing x y with
  | nil => exact h
  | cons z zs ih => exact ih (h.add z)

end Sluice.Number
