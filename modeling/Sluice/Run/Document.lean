/-
  Sluice.Run.Document

  A report as a JSON document.
-/

import Sluice.Json.Tree
import Sluice.Run.Report

namespace Sluice

open Json (Tree)

/-- The document of a location. -/
def Location.toTree (l : Location) : Tree :=
  .record [
    ("node_id", .ofOption .count l.node),
    ("pipeline_id", .ofOption .count l.pipeline),
    ("operator", .ofOption .text l.operator),
    ("line", .ofOption .count l.line)]

/-- Name of a limit. -/
def Limit.name : Limit → String
  | pipelineSteps => "PipelineSteps"
  | subscriberDepth => "SubscriberDepth"

/-- The kind of a cause, and its fields. -/
def Cause.fields : Cause → List (String × Tree)
  | unknownOperator name => [("kind", .text "UnknownOperator"), ("name", .text name)]
  | typeMismatch expected found =>
    [("kind", .text "TypeMismatch"), ("expected", .text expected), ("found", .text found)]
  | domain message => [("kind", .text "DomainError"), ("message", .text message)]
  | limitExceeded limit bound =>
    [("kind", .text "StepLimitExceeded"), ("cause", .text limit.name), ("limit", .count bound)]
  | cancelled => [("kind", .text "Cancelled")]

/-- The fields of a failure. -/
def Failure.fields (f : Failure) : List (String × Tree) :=
  f.cause.fields ++ [("location", f.location.toTree)]

/-- Name of a status. -/
def Status.name : Status → String
  | clean => "Clean"
  | compiledWithWarnings => "CompiledWithWarnings"
  | ranWithErrors => "RanWithErrors"

/-- The document of counts. -/
def Metrics.toTree (m : Metrics) : Tree :=
  .record [
    ("operator_calls", .count m.operatorCalls),
    ("pipelines_run", .count m.pipelinesRun),
    ("pool_writes", .count m.poolWrites),
    ("failed_pipelines", .count m.failedPipelines),
    ("steps", .count m.steps),
    ("retries", .count m.retries),
    ("subscriber_notifications", .count m.subscriberNotifications),
    ("live_sources", .count m.liveSources),
    ("per_operator", .record (m.perOperator.mapContents .count))]

/-- The document of a pool. -/
def Pool.toTree (p : Pool) : Tree :=
  .record [
    ("value", p.value.toTree),
    ("history", .list (p.history.map Value.toTree)),
    ("update_count", .count p.updates),
    ("subscribers", .count p.subscribers.length)]

/-- The document of a report. -/
def Report.toTree (r : Report) : Tree :=
  .record [
    ("success", .bool r.success),
    ("status", .text r.status.name),
    ("pools", .record (r.poolValues.mapContents Value.toTree)),
    ("pool_details", .record (r.pools.mapContents Pool.toTree)),
    ("errors", .list (r.errors.map fun f => .record f.fields)),
    ("warnings", .texts r.warnings),
    ("output", .texts r.output),
    ("metrics", r.metrics.toTree)]

end Sluice
