/-
  Sluice.Halt

  Why a whole run stops at once, without a report. These are limits of the machine and
  promises broken between parts of the program, not refusals: nothing is retried, and what
  was printed before stays printed.
-/

namespace Sluice

/-- Why a whole run stops. -/
inductive Halt where
  /-- An interval with a bound that is not a number. -/
  | unorderedBounds
  /-- An argument or element that is not there. -/
  | outOfRange
  /-- A whole number that is divided by zero. -/
  | zeroDivisor
  /-- Windows of no elements. -/
  | emptyWindow
  /-- Operators that call each other without end. -/
  | endlessCalls
  /-- A whole number that does not fit 64 bits. -/
  | overflow
  /-- A buffer larger than memory can be. -/
  | noRoom
deriving Repr, DecidableEq

end Sluice
