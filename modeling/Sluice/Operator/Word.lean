/-
  Sluice.Operator.Word

  Unsigned 64-bit arithmetic, as far as operators need it. A zero divisor is beyond recovery. So
  is a product beyond 64 bits in a build that checks its arithmetic; any other build keeps the
  low 64 bits of it.
-/

import Sluice.Operator.Attempt

namespace Sluice

/-- What a build does with a product that does not fit 64 bits. -/
inductive Overflow where
  | checked
  | wrapping
deriving Repr, DecidableEq

namespace Word

/-- Product of two numbers. -/
def product (overflow : Overflow) (a b : Nat) : Attempt Nat :=
  if a * b ≤ Number.maxWord then .ok (a * b)
  else
    match overflow with
    | .checked => .error (.halt .overflow)
    | .wrapping => .ok (a * b % Nat.pow 2 64)

/-- Quotient, rounded down. -/
def quotient (a b : Nat) : Attempt Nat :=
  if b = 0 then .error (.halt .zeroDivisor) else .ok (a / b)

/-- Remainder of the quotient. -/
def remainder (a b : Nat) : Attempt Nat :=
  if b = 0 then .error (.halt .zeroDivisor) else .ok (a % b)

theorem remainder_lt {a b r : Nat} (h : remainder a b = .ok r) : r < b := by
  unfold remainder at h
  split at h
  · cases h
  · next hb =>
    cases h
    exact Nat.mod_lt a (Nat.pos_of_ne_zero hb)

/-- Greatest common divisor: as long as the second number is not zero, it takes the place of the
first one, and the remainder its own. -/
def gcd (a b : Nat) : Attempt Nat :=
  if b = 0 then .ok a
  else
    match _h : remainder a b with
    | .ok r => gcd b r
    | .error fault => .error fault
termination_by b
decreasing_by exact remainder_lt (by assumption)

/-- No step of the algorithm divides by zero, and it ends at the greatest common divisor. -/
theorem gcd_eq (a b : Nat) : gcd a b = .ok (Nat.gcd a b) := by
  induction b using Nat.strongRecOn generalizing a with
  | ind b ih =>
    rw [gcd]
    by_cases hb : b = 0
    · rw [if_pos hb, hb, Nat.gcd_zero_right]
    · have hremainder : remainder a b = .ok (a % b) := if_neg hb
      rw [if_neg hb]
      split
      · next r hr =>
        obtain rfl : a % b = r := Except.ok.inj (hremainder.symm.trans hr)
        rw [ih _ (Nat.mod_lt a (Nat.pos_of_ne_zero hb)), Nat.gcd_comm, ← Nat.gcd_rec, Nat.gcd_comm]
      · next fault hr => cases hremainder.symm.trans hr

/-- Least common multiple of two numbers that are not both zero, with one division and one
product. -/
def lcm (overflow : Overflow) (a b : Nat) : Attempt Nat := do
  let part ← quotient a (← gcd a b)
  product overflow part b

end Word

end Sluice
