/-
  Sluice.Run.State

  The state of a run and the two layers in which it is written. In an `Exec` a run can only be
  halted; in a `Step`, which belongs to one pipeline, a failure ends the pipeline as well. The
  state outlives both.
-/

import Sluice.Host
import Sluice.Json.Read
import Sluice.Plan
import Sluice.Run.Event
import Sluice.Run.Report

namespace Sluice

/-- What a run works with and never changes. -/
structure RunContext (σ : Type) where
  host : Host σ
  config : Config
  /-- The channel to an observer, as it is at the start. -/
  channel : Option Channel := none
  /-- What literals read strict JSON with. -/
  json : Json.Reader := Json.readChars?
  program : Program
  plan : Plan

/-- The state of a run. -/
structure Run (σ : Type) where
  /-- State of the host. -/
  state : σ
  pools : PoolStore
  /-- Everything that happened, in order, whether or not an observer hears of it. -/
  events : Array Event := #[]
  /-- The channel to an observer. -/
  channel : Option Channel := none
  errors : Array Failure := #[]
  warnings : Array String := #[]
  output : Array String := #[]
  metrics : Metrics := {}
  /-- Whether the run was cancelled; no pipeline starts any more. -/
  stopped : Bool := false

/-- Part of a run. -/
abbrev Exec (σ α : Type) := ExceptT Halt (StateM (Run σ)) α

/-- Part of the run of one pipeline. -/
abbrev Step (σ α : Type) := ExceptT Failure (ExceptT Halt (StateM (Run σ))) α

namespace Run

variable {σ : Type}

/-- Add a warning. -/
def warn (message : String) (r : Run σ) : Run σ :=
  { r with warnings := r.warnings.push message }

/-- Add an event, and try to send it. -/
def emit (event : Event) (r : Run σ) : Run σ :=
  { r with events := r.events.push event, channel := Channel.emit r.channel event }

/-- Change the counts. -/
def count (f : Metrics → Metrics) (r : Run σ) : Run σ :=
  { r with metrics := f r.metrics }

/-- Take note of the failure of a pipeline. A cancelled pipeline stops the run. -/
def fail (pipeline : PipelineId) (failure : Failure) (r : Run σ) : Run σ :=
  { (r.emit (.failed pipeline failure)) with
    stopped := r.stopped || failure.cause == .cancelled
    metrics := { r.metrics with failedPipelines := r.metrics.failedPipelines + 1 }
    errors := r.errors.push failure }

end Run

/-- Do something unless the run was stopped. -/
def Exec.unlessStopped {σ : Type} (action : Exec σ Unit) : Exec σ Unit := do
  if (← get).stopped then pure () else action

namespace Step

variable {σ α : Type}

/-- Fail at an operator of a node. -/
def failAt (node : Node) (operator : String) (cause : Cause) : Step σ α :=
  throw ⟨cause, .atNode node operator⟩

/-- End the whole run. -/
def halt (h : Halt) : Step σ α :=
  ExceptT.lift (throw h)

end Step

end Sluice
