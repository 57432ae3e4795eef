/-
  Sluice.Proofs.Number.Order

  Laws of the numeric order. Two doubles are ordered unless one of them is not a number; ordering
  them the other way round mirrors the result.
-/

import Sluice.Number.Order

namespace Sluice.Number

variable {x y : Number}

theorem compare?_eq_none_iff : compare? x y = none ↔ isNaN x = true ∨ isNaN y = true := by
  rw [← Bool.or_eq_true]
  unfold compare?
  split <;> simp_all

/-- Numbers that are ordered are ordered as their keys. -/
theorem compare?_of_not_nan (hx : isNaN x = false) (hy : isNaN y = false) :
    compare? x y = some (compare (numericKey x) (numericKey y)) := by
  simp [compare?, hx, hy]

theorem compare?_ne_none_iff : compare? x y ≠ none ↔ isNaN x = false ∧ isNaN y = false := by
  rw [ne_eq, compare?_eq_none_iff, not_or, Bool.not_eq_true, Bool.not_eq_true]

theorem not_nan_of_lt (h : lt x y = true) : isNaN x = false ∧ isNaN y = false := by
  refine compare?_ne_none_iff.1 fun hnone => ?_
  rw [lt, hnone] at h
  cases h

theorem compare?_swap (x y : Number) : compare? y x = (compare? x y).map Ordering.swap := by
  unfold compare?
  rw [Bool.or_comm]
  split
  · rfl
  · rw [Option.map_some, Std.OrientedOrd.eq_swap]

/-- Numbers are equal to each other as their keys are. -/
theorem eq_iff_numericKey (hx : isNaN x = false) (hy : isNaN y = false) :
    eq x y = true ↔ numericKey x = numericKey y := by
  rw [eq, compare?_of_not_nan hx hy, beq_iff_eq, Option.some.injEq, Int.compare_eq_eq]

/-- Numbers are below each other as their keys are. -/
theorem lt_iff_numericKey (hx : isNaN x = false) (hy : isNaN y = false) :
    lt x y = true ↔ numericKey x < numericKey y := by
  rw [lt, compare?_of_not_nan hx hy, beq_iff_eq, Option.some.injEq, Int.compare_eq_lt]

/-- The total order tells numbers apart that the numeric one does not, and keeps to it otherwise. -/
theorem numericKey_le_of_totalCompare (h : totalCompare x y ≠ .gt) :
    numericKey x ≤ numericKey y := by
  have hkeys : totalKey x ≤ totalKey y := by
    rwa [totalCompare, Int.compare_ne_gt] at h
  unfold totalKey at hkeys
  unfold numericKey
  by_cases hx : isNegative x = true
  · by_cases hy : isNegative y = true
    · rw [if_pos hx, if_pos hy] at hkeys ⊢
      omega
    · rw [if_pos hx, if_neg hy] at hkeys ⊢
      omega
  · by_cases hy : isNegative y = true
    · rw [if_neg hx, if_pos hy] at hkeys ⊢
      omega
    · rw [if_neg hx, if_neg hy] at hkeys ⊢
      exact hkeys

/-- The first of two numbers that are not out of order is the lower one, unless one of them is not
a number. -/
theorem le_iff_of_not_lt (h : lt y x = false) :
    le x y = true ↔ isNaN x = false ∧ isNaN y = false := by
  constructor
  · refine fun hle => compare?_ne_none_iff.1 fun hnone => ?_
    simp [le, lt, eq, hnone] at hle
  · rintro ⟨hx, hy⟩
    rw [lt, compare?_swap x y, compare?_of_not_nan hx hy] at h
    rw [le, lt, eq, compare?_of_not_nan hx hy]
    cases hkeys : compare (numericKey x) (numericKey y) with
    | lt => rfl
    | eq => rfl
    | gt =>
      rw [hkeys] at h
      cases h

end Sluice.Number
