/-
  Sluice.Proofs.Value.Numeric

  The two numeric views of a value. Operators take numbers and text that reads as one, and refuse
  anything else; orders, conditions and sums of a lens also take booleans, as zero and one.
-/

import Sluice.Operator.Attempt

namespace Sluice.Value

/-- The number that a value is, or that a text reads as. -/
def numeric? : Value → Option Number
  | number x => some x
  | text s => Number.readChars? (Text.trimChars s.toList)
  | _ => none

theorem expectNumber_eq (v : Value) :
    v.expectNumber =
      match v.numeric? with
      | some x => .ok x
      | none => Attempt.refuseType "number" v := by
  cases v <;> rfl

theorem expectNumber_eq_ok_iff {v : Value} {x : Number} :
    v.expectNumber = .ok x ↔ v.numeric? = some x := by
  rw [expectNumber_eq]
  cases v.numeric? with
  | none => simp [Attempt.refuseType, Attempt.refuse]
  | some y => simp

/-- Where operators see a number, everything else sees the same number. -/
theorem toNumber?_of_numeric? {v : Value} {x : Number} (h : v.numeric? = some x) :
    v.toNumber? = some x := by
  cases v with
  | number _ | text _ => exact h
  | null | bool _ | array _ | object _ => cases h

/-- Only booleans count as numbers without being numeric. -/
theorem exists_bool_of_toNumber? {v : Value} {x : Number} (h : v.toNumber? = some x)
    (hnumeric : v.numeric? = none) : ∃ b, v = .bool b := by
  cases v with
  | bool b => exact ⟨b, rfl⟩
  | number _ | text _ => cases hnumeric.symm.trans h
  | null | array _ | object _ => cases h

end Sluice.Value
