/-
  Sluice.Program.Node

  What a program graph is made of: operators with their arguments, lenses with their bodies,
  branches, sources, and accesses to pools. A `Segment` is an operator as it was written; a
  `Node` is a segment with a place in the graph.

  Arguments keep their source text and are evaluated at every call, so that a `$pool`
  argument sees the pool's value at that moment.
-/

import Sluice.Value.Compare
import Sluice.Value.Render

namespace Sluice

/-- Index of a node in its program. -/
abbrev NodeId := Nat

/-- Number of a pipeline in its program. -/
abbrev PipelineId := Nat

/-- An operator argument: source text, or a value given directly. -/
inductive Argument where
  | source (text : String)
  | given (v : Value)

namespace Argument

/-- The pool that a `$name` argument refers to. -/
def poolReference? : Argument → Option String
  | source text =>
    match Text.trimChars text.toList with
    | '$' :: name => if name.isEmpty then none else some (String.ofList name)
    | _ => none
  | given _ => none

/-- An argument as diagnostics show it. -/
def render : Argument → String
  | source text => text
  | given v => v.renderNested

end Argument

/-- The operators that take a body between braces. -/
inductive Lens where
  | map
  | reduce
  | filter
  | split
deriving Repr, DecidableEq

namespace Lens

/-- The lens of an operator name. -/
def ofName? (name : String) : Option Lens :=
  if name = "map" then some .map
  else if name = "reduce" then some .reduce
  else if name = "filter" then some .filter
  else if name = "split" then some .split
  else none

end Lens

/-- One step of a lens body. -/
inductive LensStep where
  /-- A field path; the empty path is the value itself. -/
  | field (path : List String)
  /-- A comparison of the value at a path with an operand. -/
  | compare (path : List String) (op : Comparison) (operand : Argument)
  /-- The sum of the elements. -/
  | sum
  /-- An operator, resolved when the lens runs. -/
  | call (name : String) (arguments : List Argument)

namespace LensStep

/-- Whether a step is the sum. -/
def isSum : LensStep → Bool
  | sum => true
  | _ => false

end LensStep

/-- The body of a lens: its text and its steps. -/
structure LensBody where
  raw : String
  steps : List LensStep

namespace LensBody

/-- The body is a sum and nothing else. -/
def isSum (body : LensBody) : Bool :=
  match body.steps with
  | [step] => step.isSum
  | _ => false

/-- The body has several steps. -/
def isChain (body : LensBody) : Bool :=
  decide (1 < body.steps.length)

/-- The steps before a sum at the end. -/
def stepsWithoutSum (body : LensBody) : List LensStep :=
  match body.steps.getLast? with
  | some .sum => body.steps.dropLast
  | _ => body.steps

end LensBody

/-- What a node does when a run reaches it. -/
inductive NodeKind where
  /-- The start of a pipeline, with the literal of its value. -/
  | finiteSource (literal : String)
  /-- The start of a pipeline that waits for a live source. -/
  | liveSource (literal : String)
  /-- An operator, resolved by its name when it is called. -/
  | operator
  | lens (lens : Lens) (body : LensBody)
  /-- A branch that continues on one decision. -/
  | branch (expects : Bool)
  /-- The start of a subscription pipeline. -/
  | poolAccess (pool : String)
  | poolWrite (pool : String)

namespace NodeKind

/-- Name of a kind, as listings show it. -/
def label : NodeKind → String
  | finiteSource _ => "stream_source_finite"
  | liveSource _ => "stream_source_live"
  | operator => "function_operator"
  | lens .. => "lens_operator"
  | branch _ => "flow_branch"
  | poolAccess _ => "pool_access"
  | poolWrite _ => "pool_write"

/-- A kind that starts a pipeline. -/
def isSource : NodeKind → Bool
  | finiteSource _ | liveSource _ | poolAccess _ => true
  | _ => false

/-- A kind at which a run invokes something. -/
def isOperator : NodeKind → Bool
  | operator | lens .. | poolWrite _ => true
  | _ => false

/-- The decision a branch continues on. -/
def expects? : NodeKind → Option Bool
  | branch expects => some expects
  | _ => none

end NodeKind

/-- The operators that end the traversal of a pipeline. -/
def isTerminalName (name : String) : Bool :=
  name == "print" || name == "to_pool" || name == "ui_render"

/-- The keyword of a branch. -/
def branchKeyword (expects : Bool) : String :=
  if expects then "TRUE_FLOW" else "FALSE_FLOW"

/-- The decision that a branch keyword stands for. -/
def branchOfKeyword? (word : List Char) : Option Bool :=
  if word = (branchKeyword true).toList then some true
  else if word = (branchKeyword false).toList then some false
  else none

/-- An operator as it was written. -/
structure Segment where
  kind : NodeKind
  name : String
  arguments : List Argument
  raw : String

/-- A segment with its place in the graph: the line it was written on, the pipeline it belongs
to, and the branch whose line it was written on. -/
structure Node extends Segment where
  id : NodeId
  line : Nat
  terminal : Bool
  pipeline : PipelineId
  scope : Option NodeId

namespace Node

/-- A node as diagnostics show it. -/
def render (id line : Nat) (raw : String) : String :=
  s!"n{id} `{raw}` (line {line})"

end Node

end Sluice
