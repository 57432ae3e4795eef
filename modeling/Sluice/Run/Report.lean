/-
  Sluice.Run.Report

  What is left of a run: the pools, the failures and warnings, the printed lines, and counts.
-/

import Sluice.Pool
import Sluice.Run.Failure

namespace Sluice

/-- Counts of a run. -/
structure Metrics where
  /-- Invocations of operators, with nested calls and retries. -/
  operatorCalls : Nat := 0
  /-- Pipelines started, subscribers included. -/
  pipelinesRun : Nat := 0
  poolWrites : Nat := 0
  failedPipelines : Nat := 0
  /-- Nodes visited. -/
  steps : Nat := 0
  retries : Nat := 0
  subscriberNotifications : Nat := 0
  liveSources : Nat := 0
  /-- Invocations by the name that a node or lens step called. -/
  perOperator : Record Nat := []

namespace Metrics

/-- Count invocations under a name. -/
def countOperator (m : Metrics) (name : String) (calls : Nat) : Metrics :=
  { m with
    operatorCalls := m.operatorCalls + calls
    perOperator := m.perOperator.set name ((m.perOperator.get? name).getD 0 + calls) }

end Metrics

/-- How a run ended. -/
inductive Status where
  | clean
  | compiledWithWarnings
  | ranWithErrors
deriving Repr, DecidableEq

namespace Status

/-- A status in words. -/
def render : Status → String
  | clean => "completed cleanly"
  | compiledWithWarnings => "compiled with warnings"
  | ranWithErrors => "ran with errors"

/-- The status of a run with some warnings and errors; errors weigh more. -/
def ofCounts (warnings errors : Nat) : Status :=
  if 0 < errors then .ranWithErrors
  else if 0 < warnings then .compiledWithWarnings
  else .clean

end Status

/-- What a run produced. -/
structure Report where
  /-- Whether every pipeline completed. -/
  success : Bool := true
  /-- How the run ended. -/
  status : Status := .clean
  /-- The final value of every pool. -/
  poolValues : Record Value := []
  pools : Record Pool := []
  errors : List Failure := []
  warnings : List String := []
  /-- Printed lines, in order. -/
  output : List String := []
  metrics : Metrics := {}

/-- Set what the errors and warnings of a report say of the run as a whole. -/
def Report.finalize (r : Report) : Report :=
  { r with
    success := r.errors.isEmpty
    status := .ofCounts r.warnings.length r.errors.length }

end Sluice
