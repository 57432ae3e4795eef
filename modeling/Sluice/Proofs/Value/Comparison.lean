/-
  Sluice.Proofs.Value.Comparison

  How the six comparisons of two values fit together. Order and equality are two tables over the
  types of the values: a number is ordered against everything that counts as a number, booleans
  among it, but it equals only numbers and text.

  Main statement: the comparisons of two values that are ordered are coherent if and only if these
  are not a number and a boolean that counts as the same number. Of such a pair neither is less
  than, equal to or greater than the other, and yet each is at least and at most the other.
-/

import Mathlib.Logic.ExistsUnique
import Sluice.Proofs.Number.Order
import Sluice.Value.Compare

namespace Sluice

-- ============================================================================
-- Order and equality
-- ============================================================================

namespace Value

/-- A number and a boolean that counts as the same number. -/
def countsAlike : Value → Value → Bool
  | number x, bool b => Number.eq x (if b then 1.0 else 0.0)
  | bool b, number x => Number.eq (if b then 1.0 else 0.0) x
  | _, _ => false

theorem compare?_number_left (x : Number) (v : Value) :
    compare? (number x) v = v.toNumber?.bind fun y => Number.compare? x y := by
  cases v <;> rfl

theorem compare?_number_right (v : Value) (y : Number) :
    compare? v (number y) = v.toNumber?.bind fun x => Number.compare? x y := by
  cases v <;> rfl

/-- Values are ordered one way round if they are the other way round, and mirrored. -/
theorem compare?_swap (a b : Value) : compare? b a = (compare? a b).map Ordering.swap := by
  have hleft : ∀ x v, compare? v (number x) = (compare? (number x) v).map Ordering.swap := by
    intro x v
    rw [compare?_number_left, compare?_number_right]
    cases v.toNumber? with
    | none => rfl
    | some y => exact Number.compare?_swap x y
  have hright : ∀ x v, compare? (number x) v = (compare? v (number x)).map Ordering.swap := by
    intro x v
    rw [compare?_number_left, compare?_number_right]
    cases v.toNumber? with
    | none => rfl
    | some y => exact Number.compare?_swap y x
  cases a with
  | number x => exact hleft x b
  | text s =>
    cases b with
    | number y => exact hright y _
    | text t => exact congrArg some Std.OrientedOrd.eq_swap
    | null | bool _ | array _ | object _ => rfl
  | bool p =>
    cases b with
    | number y => exact hright y _
    | bool q => exact congrArg some Std.OrientedOrd.eq_swap
    | null | text _ | array _ | object _ => rfl
  | null | array _ | object _ =>
    cases b with
    | number y => exact hright y _
    | null | bool _ | text _ | array _ | object _ => rfl

variable {a b : Value} {o : Ordering}

/-- Only values that neither precede nor follow each other count alike. -/
theorem eq_of_countsAlike (h : compare? a b = some o) (halike : countsAlike a b = true) :
    o = .eq := by
  unfold countsAlike at halike
  split at halike
  · next x p =>
    have horder : Number.compare? x (if p then 1.0 else 0.0) = some o := h
    rw [Number.eq, horder] at halike
    simpa using halike
  · next p x =>
    have horder : Number.compare? (if p then 1.0 else 0.0) x = some o := h
    rw [Number.eq, horder] at halike
    simpa using halike
  · cases halike

/-- Values that are ordered are equal if and only if neither precedes the other, unless a number
meets a boolean. -/
theorem looselyEqual_eq (h : compare? a b = some o) :
    looselyEqual a b = (o == .eq && !countsAlike a b) := by
  cases a with
  | number x =>
    cases b with
    | number y =>
      have horder : Number.compare? x y = some o := h
      show (Number.compare? x y == some .eq) = _
      rw [horder]
      cases o <;> rfl
    | text t =>
      show (compare? (number x) (text t) == some .eq) = _
      rw [h]
      cases o <;> rfl
    | bool q =>
      have horder : Number.compare? x (if q then 1.0 else 0.0) = some o := h
      show false = (o == .eq && !(Number.compare? x (if q then 1.0 else 0.0) == some .eq))
      rw [horder]
      cases o <;> rfl
    | null | array _ | object _ => cases h
  | text s =>
    cases b with
    | number y =>
      show (compare? (text s) (number y) == some .eq) = _
      rw [h]
      cases o <;> rfl
    | text t =>
      obtain rfl : compare s t = o := Option.some.inj h
      show (s == t) = (compare s t == .eq && true)
      rw [Bool.and_true, Bool.eq_iff_iff, beq_iff_eq, beq_iff_eq, Std.LawfulEqOrd.compare_eq_iff_eq]
    | null | bool _ | array _ | object _ => cases h
  | bool p =>
    cases b with
    | number y =>
      have horder : Number.compare? (if p then 1.0 else 0.0) y = some o := h
      show false = (o == .eq && !(Number.compare? (if p then 1.0 else 0.0) y == some .eq))
      rw [horder]
      cases o <;> rfl
    | bool q =>
      obtain rfl : compare p q = o := Option.some.inj h
      cases p <;> cases q <;> rfl
    | null | text _ | array _ | object _ => cases h
  | null =>
    cases b with
    | null =>
      obtain rfl : Ordering.eq = o := Option.some.inj h
      rfl
    | number _ | bool _ | text _ | array _ | object _ => cases h
  | array _ | object _ => cases b <;> cases h

end Value

-- ============================================================================
-- Comparisons
-- ============================================================================

namespace Comparison

/-- What holds of values in an order: less, equal or greater. -/
def ofOrdering : Ordering → Comparison
  | .lt => lt
  | .eq => eq
  | .gt => gt

/-- The comparisons of two values fit together as those of an order: exactly one of less, equal
and greater holds, the others are made of these, and the other way round they are mirrored. -/
structure Coherent (a b : Value) : Prop where
  exactly_one : ∃! o : Ordering, (ofOrdering o).holds a b = true
  ge_iff : ge.holds a b = true ↔ gt.holds a b = true ∨ eq.holds a b = true
  le_iff : le.holds a b = true ↔ lt.holds a b = true ∨ eq.holds a b = true
  ne_iff : ne.holds a b = true ↔ ¬ eq.holds a b = true
  lt_swap : lt.holds a b = gt.holds b a
  gt_swap : gt.holds a b = lt.holds b a
  le_swap : le.holds a b = ge.holds b a
  ge_swap : ge.holds a b = le.holds b a

theorem lt_mirrored (a b : Value) : lt.holds a b = gt.holds b a := by
  unfold holds
  rw [Value.compare?_swap a b]
  cases Value.compare? a b with
  | none => rfl
  | some o => cases o <;> rfl

theorem le_mirrored (a b : Value) : le.holds a b = ge.holds b a := by
  unfold holds
  rw [Value.compare?_swap a b]
  cases Value.compare? a b with
  | none => rfl
  | some o => cases o <;> rfl

variable {a b : Value} {o : Ordering}

theorem ge_of_ordered (h : Value.compare? a b = some o) : ge.holds a b = (o != .lt) := by
  unfold holds
  rw [h]

theorem le_of_ordered (h : Value.compare? a b = some o) : le.holds a b = (o != .gt) := by
  unfold holds
  rw [h]

/-- Of values that are ordered, and do not count alike across types, their order holds and no
other. -/
theorem holds_ofOrdering (h : Value.compare? a b = some o) (hapart : Value.countsAlike a b = false)
    (other : Ordering) : (ofOrdering other).holds a b = (o == other) := by
  cases other with
  | lt | gt =>
    unfold ofOrdering holds
    rw [h]
    rfl
  | eq =>
    show Value.looselyEqual a b = _
    rw [Value.looselyEqual_eq h, hapart, Bool.not_false, Bool.and_true]

/-- The comparisons of two values that are ordered are coherent, unless a number meets a boolean
that counts as the same number. -/
theorem coherent_iff {a b : Value} {o : Ordering} (h : Value.compare? a b = some o) :
    Coherent a b ↔ Value.countsAlike a b = false := by
  constructor
  · intro hcoherent
    cases halike : Value.countsAlike a b with
    | false => rfl
    | true =>
      -- Each is at least the other, but neither greater nor equal.
      obtain rfl := Value.eq_of_countsAlike h halike
      have hge : ge.holds a b = true := ge_of_ordered h
      have hgt : ¬ gt.holds a b = true := by simp [holds, h]
      have heq : ¬ eq.holds a b = true := by simp [holds, Value.looselyEqual_eq h, halike]
      exact absurd (hcoherent.ge_iff.1 hge) (not_or.2 ⟨hgt, heq⟩)
  · intro hapart
    have hone := holds_ofOrdering h hapart
    have hlt : lt.holds a b = (o == .lt) := hone .lt
    have heq : eq.holds a b = (o == .eq) := hone .eq
    have hgt : gt.holds a b = (o == .gt) := hone .gt
    refine ⟨?_, ?_, ?_, ?_, lt_mirrored a b, (lt_mirrored b a).symm, le_mirrored a b,
      (le_mirrored b a).symm⟩
    · refine ⟨o, (hone o).trans (beq_self_eq_true o), fun other hother => ?_⟩
      exact (beq_iff_eq.1 ((hone other).symm.trans hother)).symm
    · rw [ge_of_ordered h, hgt, heq]
      cases o <;> decide
    · rw [le_of_ordered h, hlt, heq]
      cases o <;> decide
    · show (!eq.holds a b) = true ↔ _
      rw [Bool.not_eq_true', Bool.not_eq_true]

/-- A number and text that reads as a greater one. -/
theorem coherent_iff_numericText :
    Value.compare? (.number 3.0) (.text " 10 ") = some .lt ∧
      Coherent (.number 3.0) (.text " 10 ") := by
  have h : Value.compare? (.number 3.0) (.text " 10 ") = some .lt := by decide +kernel
  exact ⟨h, (coherent_iff h).2 rfl⟩

/-- One and the true boolean are ordered as equals, and are neither less, equal nor greater. -/
theorem one_beside_true :
    Value.compare? (.number 1.0) (.bool true) = some .eq ∧
      ¬ Coherent (.number 1.0) (.bool true) := by
  have h : Value.compare? (.number 1.0) (.bool true) = some .eq := by decide +kernel
  have hnone : ∀ o, ¬ (ofOrdering o).holds (.number 1.0) (.bool true) = true := by decide +kernel
  refine ⟨h, fun hcoherent => ?_⟩
  obtain ⟨o, ho, -⟩ := hcoherent.exactly_one
  exact hnone o ho

end Comparison

end Sluice
