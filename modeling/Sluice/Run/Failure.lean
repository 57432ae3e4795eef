/-
  Sluice.Run.Failure

  Why a pipeline stops before its end, and where. A failure ends only the pipeline it arises
  in.
-/

import Sluice.Operator.Attempt
import Sluice.Program.Node

namespace Sluice

/-- A place in a program, as far as it is known. -/
structure Location where
  node : Option NodeId := none
  pipeline : Option PipelineId := none
  operator : Option String := none
  line : Option Nat := none
deriving Repr, DecidableEq

namespace Location

/-- The place of an operator at a node. -/
def atNode (node : Node) (operator : String) : Location :=
  ⟨some node.id, some node.pipeline, some operator, some node.line⟩

/-- A location in words. -/
def render (l : Location) : String :=
  let parts :=
    (l.line.map fun n => s!"line {n}").toList
      ++ (l.node.map fun n => s!"node n{n}").toList
      ++ (l.operator.map fun name => s!"operator '{name}'").toList
  if parts.isEmpty then "<program>" else Text.join ", " parts

end Location

/-- The limits that a run keeps. -/
inductive Limit where
  /-- Nodes visited by one run of a pipeline. -/
  | pipelineSteps
  /-- Levels of subscribers. -/
  | subscriberDepth
deriving Repr, DecidableEq

/-- A limit in words. -/
def Limit.render : Limit → String
  | pipelineSteps => "pipeline step ceiling"
  | subscriberDepth => "subscriber recursion depth"

/-- What stops a pipeline. -/
inductive Cause where
  | unknownOperator (name : String)
  | typeMismatch (expected found : String)
  | domain (message : String)
  | limitExceeded (limit : Limit) (bound : Nat)
  | cancelled
deriving Repr, DecidableEq

/-- What stopped a pipeline, and where. -/
structure Failure where
  cause : Cause
  location : Location
deriving Repr, DecidableEq

namespace Failure

/-- The wording of a failure. -/
def message (f : Failure) : String :=
  match f.cause with
  | .unknownOperator name => s!"Unknown operator '{name}' at " ++ f.location.render
  | .typeMismatch expected found =>
    "Type mismatch at " ++ f.location.render ++ s!": expected {expected}, found {found}"
  | .domain message => "Domain error at " ++ f.location.render ++ s!": {message}"
  | .limitExceeded limit bound =>
    "Step limit exceeded (" ++ limit.render ++ s!", limit {bound}) at " ++ f.location.render
  | .cancelled => "Cancelled at " ++ f.location.render

end Failure

/-- What an operator's refusal means for its pipeline. -/
def Cause.ofRefusal : OperatorError → Cause
  | .typeMismatch expected found => .typeMismatch expected found
  | .arity expected found => .typeMismatch s!"{expected} arguments" s!"{found} arguments"
  | .domain message => .domain message
  | .unknownOperator name => .unknownOperator name

end Sluice
