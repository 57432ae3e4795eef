/-
  Sluice.Registry

  Where the implementation of an operator comes from. A name of the core library is served by
  it, unless selection is on and favours a domain library that declares the name. Any other
  name is served by the first enabled domain library that declares it, or else by a script, or
  else by the fallback library. Implementations that the breaker left out are passed over.

  Domain libraries are loaded when they first serve a name, or are imported.
-/

import Sluice.Host
import Sluice.Operator.Core
import Sluice.Operator.Domain
import Sluice.Operator.Fallback
import Sluice.Registry.Breaker
import Sluice.Script.Language

namespace Sluice

/-- The implementations of an engine, and what is known of them. -/
structure Registry where
  /-- Enabled domain libraries that exist, in the order in which they are consulted. -/
  order : List String
  /-- Libraries loaded so far, each once. -/
  loaded : List String := []
  /-- How many libraries were loaded so far. -/
  loads : Nat := 0
  selection : Selection
  breaker : Breaker
  /-- Warnings since they were last handed over. -/
  warnings : List String

namespace Registry

variable {σ α : Type}

/-- A script that does not compile. -/
def scriptWarning (name : String) (e : SetupError) : String :=
  (SetupError.within s!"Script operator '{name}'" e).message

/-- Compile scripts in order by a compiler, with one cache; what does not compile becomes a
warning. -/
def compileScriptsWith (compiler : String → Except String α) (cache : Script.Cache α) :
    List (String × String) → List (String × Script.Compiled α) × List String
  | [] => ([], [])
  | (name, text) :: rest =>
    match cache.getOrCompileWith compiler name text with
    | (.ok script, cache) =>
      let (scripts, warnings) := compileScriptsWith compiler cache rest
      ((name, script) :: scripts, warnings)
    | (.error e, cache) =>
      let (scripts, warnings) := compileScriptsWith compiler cache rest
      (scripts, scriptWarning name e :: warnings)

/-- What the scripts of a configuration do, by the names of their operators, where they compile. -/
def scriptOperations (language : Script.Language σ) (config : Config) :
    List (String × Script.Operation σ) :=
  (compileScriptsWith language.compile [] config.scripts).1.map fun (name, script) =>
    (name, language.operation script)

/-- The operators of scripts. They act on the host's state, of which their world is a part. -/
def scriptLibrary (operations : List (String × Script.Operation σ)) : Library σ where
  name := "script"
  tier := .script
  entries := operations.map fun (name, operation) =>
    ⟨name, .any, fun input args => .perform (operation input args)⟩

/-- The registry of a configuration, with nothing loaded and nothing left out. -/
def ofConfig (compiler : String → Except String α) (config : Config) : Registry :=
  let unknown := config.domains.enabled.filter fun name => !Domain.isKnown name
  let (_, scriptWarnings) := compileScriptsWith compiler [] config.scripts
  { order := config.domains.enabled.filter Domain.isKnown
    selection := config.selection
    breaker := { settings := config.breaker }
    warnings :=
      unknown.map (fun name => s!"Unknown domain library '{name}' in configuration")
        ++ scriptWarnings }

/-- Whether a library is loaded. -/
def isLoaded (r : Registry) (library : String) : Bool :=
  r.loaded.contains library

/-- How many libraries are loaded. -/
def loadCount (r : Registry) : Nat :=
  r.loads

/-- Load a library, once. -/
def load (r : Registry) (library : String) : Registry :=
  if r.isLoaded library then r
  else { r with loaded := r.loaded ++ [library], loads := r.loads + 1 }

/-- Whether an implementation may serve. -/
def isOpen (r : Registry) (name : String) (tier : Tier) : Bool :=
  !r.breaker.isTripped ⟨name, tier⟩

/-- The enabled domain libraries that declare a name, in order. -/
def providers (r : Registry) (name : String) : List String :=
  r.order.filter fun library => (Domain.declared library).contains name

/-- The domain library that serves a name of the core library instead of it. -/
def preferred? (r : Registry) (name : String) (profile : CallProfile) : Option String :=
  if r.selection.enabled && r.isOpen name .domain then
    (r.providers name).find? fun library => r.selection.prefers library profile
  else none

/-- The domain library that serves a name outside the core library. -/
def provider? (r : Registry) (name : String) : Option String :=
  if r.isOpen name .domain then (r.providers name).head? else none

/-- The script that serves a name. -/
def script? (r : Registry) (scripts : Library σ) (name : String) : Option (Operator σ) :=
  if r.isOpen name .script then scripts.operator? name else none

/-- The fallback implementation that serves a name. -/
def fallback? (r : Registry) (name : String) : Option (Operator σ) :=
  if r.isOpen name .fallback then Fallback.library.operator? name else none

/-- Serve a name from a domain library, which is loaded if need be. -/
def serve? (r : Registry) (overflow : Overflow) (name library : String) :
    Option (Operator σ × Registry) :=
  ((Domain.library? overflow library).bind (·.operator? name)).map (·, r.load library)

/-- Find the implementation of a name for a call, with the domain libraries of a build and some
scripts. -/
def resolve (r : Registry) (overflow : Overflow) (scripts : Library σ) (name : String)
    (profile : CallProfile) : Except ResolveError (Operator σ) × Registry :=
  match Core.library.operator? name with
  | some core =>
    match (r.preferred? name profile).bind (r.serve? overflow name) with
    | some (op, r) => (.ok op, r)
    | none => (.ok core, r)
  | none =>
    -- No core operator: the other tiers follow in order.
    match (r.provider? name).bind (r.serve? overflow name) with
    | some (op, r) => (.ok op, r)
    | none =>
      match (r.script? scripts name).or (r.fallback? name) with
      | some op => (.ok op, r)
      | none => (.error (.notFound name), r)

/-- Take note of the outcome of an invocation; leaving an implementation out is a warning. -/
def record (r : Registry) (name : String) (tier : Tier) (success : Bool) : Registry :=
  let (trips, breaker) := r.breaker.record ⟨name, tier⟩ success
  let tripped :=
    s!"Circuit breaker tripped for " ++ tier.name ++ s!" implementation of '{name}'"
  { r with breaker, warnings := if trips then r.warnings ++ [tripped] else r.warnings }

/-- Load an enabled library ahead of use. -/
def preload (r : Registry) (library : String) : Except ResolveError Unit × Registry :=
  if r.order.contains library then (.ok (), r.load library)
  else
    let reason := if Domain.isKnown library then "library is disabled" else "no such domain library"
    (.error (.libraryLoad library reason), r)

/-- Hand over the warnings gathered so far. -/
def drainWarnings (r : Registry) : List String × Registry :=
  (r.warnings, { r with warnings := [] })

end Registry

end Sluice
