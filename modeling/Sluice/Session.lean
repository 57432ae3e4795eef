/-
  Sluice.Session

  An engine in use: its registry, whether it was cancelled, and what lies outside of both, which
  is the state of the engine's own operators and the world that its scripts see. All of it
  outlives a run. Operators of its own come before those of the registry, and their outcomes
  count for the breaker like any other's.

  What an engine is built with never changes: whether its arithmetic is checked, the language of
  its scripts, and its reader of JSON.
-/

import Sluice.Engine
import Sluice.Registry
import Sluice.Script.Plain

namespace Sluice

/-- What an engine keeps between runs. -/
structure Session (τ : Type) where
  registry : Registry
  cancelled : Bool := false
  /-- State of the session's own operators, and of the world in which its scripts run. -/
  own : τ

/-- What implementations are taken from, beside the libraries that all engines have. -/
structure Tiers (τ : Type) where
  overflow : Overflow := .checked
  /-- The scripts, by the names of their operators. -/
  scripts : List (String × Script.Operation τ) := []

/-- What an engine is built with. -/
structure Build (τ : Type) where
  overflow : Overflow := .checked
  language : Script.Language τ := Script.plain
  json : Json.Reader := Json.readChars?

/-- The implementations that a build has for a configuration. -/
def Build.tiers {τ : Type} (build : Build τ) (config : Config) : Tiers τ where
  overflow := build.overflow
  scripts := Registry.scriptOperations build.language config

namespace Session

variable {τ : Type}

/-- A session at its start. -/
def ofConfig (config : Config) (own : τ) (build : Build τ := {}) : Session τ :=
  { registry := .ofConfig build.language.compile config, own }

/-- Apply a change that has a result to the registry. -/
def onRegistry {α : Type} (f : Registry → α × Registry) (s : Session τ) : α × Session τ :=
  let (result, registry) := f s.registry
  (result, { s with registry })

/-- Cancel this run and all that follow. -/
def cancel (s : Session τ) : Session τ :=
  { s with cancelled := true }

/-- The operators of scripts. Of a session they see no more than their world. -/
def scriptLibrary (tiers : Tiers τ) : Library (Session τ) :=
  Registry.scriptLibrary <| tiers.scripts.map fun (name, operation) =>
    (name, operation.within Session.own fun own s => { s with own })

/-- Find the implementation of a name: an operator of the session's own, or else the
registry's. -/
def resolve (operators : List (Operator (Session τ))) (tiers : Tiers τ) (name : String)
    (profile : CallProfile) (s : Session τ) :
    Except ResolveError (Operator (Session τ)) × Session τ :=
  match operators.find? fun op => op.name == name with
  | some op => (.ok op, s)
  | none => s.onRegistry fun r => r.resolve tiers.overflow (scriptLibrary tiers) name profile

/-- The surroundings of a session's runs. -/
def host (operators : List (Operator (Session τ))) (tiers : Tiers τ := {}) :
    Host (Session τ) where
  resolve := resolve operators tiers
  record name tier success s := { s with registry := s.registry.record name tier success }
  preload library := onRegistry fun r => r.preload library
  drainWarnings := onRegistry Registry.drainWarnings
  isCancelled s := s.cancelled

/-- The engine of a session. -/
def engine (config : Config) (operators : List (Operator (Session τ))) (build : Build τ := {}) :
    Engine (Session τ) where
  host := host operators (build.tiers config)
  config := config
  json := build.json

end Session

/-- Run a program once, with a fresh registry. -/
def Program.runWith (program : Program) (config : Config) :
    Except Engine.Halted (Engine.Finished (Session Unit)) :=
  (Session.engine config []).run program (.ofConfig config ())

end Sluice
