/-
  Sluice.Operator.Domain

  The domain libraries by name, in the order in which they are consulted by default.
-/

import Sluice.Operator.Analytics
import Sluice.Operator.Health
import Sluice.Operator.Iot
import Sluice.Operator.Security

namespace Sluice

variable {σ : Type}

namespace Domain

/-- The domain libraries of a build, in their default order. -/
def librariesWith (overflow : Overflow) : List (Library σ) :=
  [Math.libraryWith overflow, Analytics.library, Health.library, Iot.library, Network.library,
   Security.library]

/-- The domain library of a name. -/
def library? (overflow : Overflow) (name : String) : Option (Library σ) :=
  (librariesWith overflow).find? fun l => l.name == name

/-- The operators a domain library declares, in any build. -/
def declared (name : String) : List String :=
  match library? (σ := Unit) .checked name with
  | some l => l.names
  | none => []

/-- Whether a name is that of a domain library. -/
def isKnown (name : String) : Bool :=
  (library? (σ := Unit) .checked name).isSome

end Domain

end Sluice
