/-
  Sluice.Config

  The settings of an engine: limits of a run, how operators are selected and tripped, which
  domain libraries may be loaded, and the operators given as scripts. `Config.check` refuses
  settings that no engine can run with; nothing else looks at them before a run does.
-/

import Sluice.Number.Arithmetic
import Sluice.Record
import Sluice.SetupError

namespace Sluice

/-- How to choose between the core and a domain implementation of an operator. -/
structure Selection where
  enabled : Bool := false
  /-- The score from which on the domain implementation is chosen. -/
  threshold : Number := 10.0
  /-- Weight of an element of the input. -/
  sizeWeight : Number := 1.0
  /-- Weight of a level of nesting. -/
  depthWeight : Number := 0.5
  /-- Bias towards a library. -/
  domainWeights : Record Number := []
deriving Repr, DecidableEq

/-- What a choice depends on: the size of the input and the depth of the call. -/
structure CallProfile where
  size : Nat
  depth : Nat
deriving Repr, DecidableEq

namespace Selection

/-- The bias towards a library. -/
def domainWeight (s : Selection) (library : String) : Number :=
  (s.domainWeights.get? library).getD 0.0

/-- The score of a call; a higher one favours the domain implementation. -/
def score (s : Selection) (library : String) (profile : CallProfile) : Number :=
  Number.ofNat profile.size * s.sizeWeight + s.domainWeight library
    + Number.ofNat profile.depth * s.depthWeight

/-- Whether a call takes the implementation of a domain library. -/
def prefers (s : Selection) (library : String) (profile : CallProfile) : Bool :=
  s.enabled && Number.le s.threshold (s.score library profile)

end Selection

/-- When an implementation that keeps failing is left out. -/
structure BreakerSettings where
  enabled : Bool := true
  /-- Failures in a row after which an implementation is left out. -/
  threshold : Nat := 3
deriving Repr, DecidableEq

/-- The domain libraries that may be loaded, in the order in which they are consulted. -/
structure DomainSettings where
  enabled : List String := ["math", "analytics", "health", "iot", "network", "security"]
deriving Repr, DecidableEq

namespace DomainSettings

/-- Whether a library may be loaded. -/
def isEnabled (d : DomainSettings) (library : String) : Bool :=
  d.enabled.contains library

/-- Leave a library out. -/
def disable (d : DomainSettings) (library : String) : DomainSettings :=
  ⟨d.enabled.filter (· ≠ library)⟩

/-- Add a library at the end, once. -/
def enable (d : DomainSettings) (library : String) : DomainSettings :=
  if d.isEnabled library then d else ⟨d.enabled ++ [library]⟩

end DomainSettings

/-- The settings of an engine. -/
structure Config where
  /-- Values that a pool remembers. -/
  historyCapacity : Nat := 10
  /-- Nodes that one run of a pipeline may visit. -/
  maxSteps : Nat := 10000
  /-- Levels of subscribers below a pipeline. -/
  maxSubscriberDepth : Nat := 32
  /-- Keep printed lines off the standard output. -/
  quiet : Bool := false
  /-- Run pipelines of live sources once. -/
  runLiveSourcesOnce : Bool := false
  /-- Run every subscription once with the initial value of its pool. -/
  fireSubscribersOnStart : Bool := true
  /-- Further attempts after an operator fails. -/
  operatorRetries : Nat := 0
  selection : Selection := {}
  breaker : BreakerSettings := {}
  domains : DomainSettings := {}
  /-- Operators given as scripts. -/
  scripts : Record String := []
deriving Repr, DecidableEq

namespace Config

/-- Refuse settings that no engine can run with. -/
def check (c : Config) : Except SetupError Unit :=
  if c.historyCapacity = 0 then .error (.config "history_capacity must be at least 1")
  else if c.maxSteps = 0 then .error (.config "max_steps must be at least 1")
  else if c.breaker.enabled && c.breaker.threshold == 0 then
    .error (.config "circuit_breaker.failure_threshold must be at least 1")
  else .ok ()

end Config

end Sluice
