/-
  Sluice.Registry.Breaker

  The circuit breaker: an implementation outside the core that fails several times in a row
  is left out from then on. An implementation is an operator's name at a tier.
-/

import Sluice.Config
import Sluice.Operator

namespace Sluice

/-- An operator's name at a tier. -/
structure Implementation where
  name : String
  tier : Tier
deriving Repr, DecidableEq

/-- The failures in a row of each implementation, and the implementations left out. -/
structure Breaker where
  settings : BreakerSettings
  /-- Implementations with at least one failure in a row, and how many. -/
  streaks : List (Implementation × Nat) := []
  /-- Implementations left out, each once. -/
  tripped : List Implementation := []

namespace Breaker

/-- Whether an implementation is left out. -/
def isTripped (b : Breaker) (i : Implementation) : Bool :=
  b.tripped.contains i

/-- How many implementations are left out. -/
def trippedCount (b : Breaker) : Nat :=
  b.tripped.length

/-- The failures in a row of an implementation. -/
def streak (b : Breaker) (i : Implementation) : Nat :=
  (b.streaks.lookup i).getD 0

/-- Forget the failures of an implementation. -/
def clear (b : Breaker) (i : Implementation) : Breaker :=
  { b with streaks := b.streaks.filter fun s => s.1 ≠ i }

/-- Leave an implementation out, and say whether it was still in. -/
def trip (b : Breaker) (i : Implementation) : Bool × Breaker :=
  if b.isTripped i then (false, b) else (true, { b with tripped := b.tripped ++ [i] })

/-- Take note of a success or a failure. The answer is whether it is the failure that leaves
the implementation out. -/
def record (b : Breaker) (i : Implementation) (success : Bool) : Bool × Breaker :=
  if !b.settings.enabled || i.tier == .core then (false, b)
  else if success then (false, b.clear i)
  else
    -- The failure that trips also starts a new streak.
    let count := b.streak i + 1
    if b.settings.threshold ≤ count then (b.clear i).trip i
    else (false, { b.clear i with streaks := (i, count) :: (b.clear i).streaks })

end Breaker

end Sluice
