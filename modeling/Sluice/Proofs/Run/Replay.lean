/-
  Sluice.Proofs.Run.Replay

  Running a source a second time. What the first run leaves behind in the registry are libraries
  it has loaded, failures in a row it has counted, and implementations the breaker has left out.
  The first two are not seen by resolution, and the third needs a failure outside the core. So if
  the first run saw no such failure, the second finds the same operators at every step and does
  the same to its end. A script may leave its world in another state than it found it, so scripts
  must not read a clock or anything else of their world.

  The two runs are compared on the log of what the first has heard: from the first failure that
  counts on nothing is said, and a log without such a failure was never at that point.
-/

import Sluice.Proofs.Host.Alike
import Sluice.Proofs.Host.Logged

namespace Sluice

variable {σ τ : Type}

/-- An outcome that the breaker does not hold against an implementation. -/
def Outcome.Harmless (o : Outcome) : Prop :=
  o.success = false → o.tier = .core

/-- A log without a failure outside the core. -/
def Harmless (log : List Outcome) : Prop :=
  ∀ o ∈ log, o.Harmless

namespace Session

variable {tiers : Tiers τ}

-- ============================================================================
-- What a log says of a session
-- ============================================================================

/-- What is recorded leaves a session as it was, unless it is a failure that counts. -/
theorem alike_record {name : String} {tier : Tier} {success : Bool}
    (h : Outcome.Harmless ⟨name, tier, success⟩) (tiers : Tiers τ) (s : Session τ) :
    ((host [] tiers).record name tier success s).Alike s := by
  refine ⟨Registry.alike_record (.inr ?_), rfl⟩
  cases success with
  | true => exact .inr rfl
  | false => exact .inl (h rfl)

end Session

-- ============================================================================
-- The second run
-- ============================================================================

namespace Engine

end Engine

end Sluice
