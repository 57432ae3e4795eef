/-
  Sluice.Program.Build

  Source text to a program graph. Building never fails: a line that cannot be understood adds
  a warning, and the rest is still built.

  A builder holds the graph so far and the pipeline that following lines extend. Segments are
  chained onto the pipeline's last node. The first branch hangs off the node before it, the
  anchor; a further branch of the group is also reached from the anchor. Nodes written after
  a branch belong to its scope until the next branch, the next continuation line, or, in a
  branch that is not the first of its group, a terminal operator.
-/

import Sluice.Program.Statement
import Sluice.Source.Balanced
import Sluice.Source.Scan

namespace Sluice

/-- The pipeline that following lines extend. -/
structure OpenPipeline where
  id : PipelineId
  /-- The last node so far. -/
  tail : NodeId
  /-- The branch that new nodes belong to. -/
  scope : Option NodeId := none
  /-- The node that the current group of branches hangs off. -/
  anchor : Option NodeId := none
  /-- The scope is not the first branch of its group: a terminal operator ends it. -/
  closesAtTerminal : Bool := false
deriving Repr, DecidableEq

namespace OpenPipeline

/-- Leave the current group of branches. -/
def leaveBranches (pipeline : OpenPipeline) : OpenPipeline :=
  { pipeline with scope := none, anchor := none, closesAtTerminal := false }

end OpenPipeline

/-- A program graph under construction, with the pools referred to so far and the lines of
those references. -/
structure Builder where
  program : Program := {}
  current : Option OpenPipeline := none
  references : List (String × Nat) := []

namespace Builder

/-- Add a warning. -/
def warn (b : Builder) (line : Nat) (problem : Problem) : Builder :=
  { b with program := b.program.warn line problem }

/-- No pipeline is open any more. -/
def close (b : Builder) : Builder :=
  { b with current := none }

/-- Hang a branch onto the open pipeline. -/
def addBranch (b : Builder) (pipeline : OpenPipeline) (segment : Segment) (line : Nat) :
    Builder × OpenPipeline :=
  let id := b.program.nodes.size
  let anchor := pipeline.anchor.getD pipeline.tail
  let program := (b.program.addNode segment line pipeline.id none).connect pipeline.tail id .pipe
  -- A later branch of a group is also reached from the node that the group hangs off.
  let program := if anchor = pipeline.tail then program else program.connect anchor id .pipe
  ({ b with program },
    { pipeline with
      tail := id, scope := some id, anchor := some anchor,
      closesAtTerminal := decide (anchor ≠ pipeline.tail) })

/-- Chain an operator onto the open pipeline. -/
def addOperator (b : Builder) (pipeline : OpenPipeline) (segment : Segment) (line : Nat) :
    Builder × OpenPipeline :=
  -- Behind the last branch a terminal operator belongs to all branches, not to the last.
  let pipeline :=
    if isTerminalName segment.name && pipeline.closesAtTerminal then pipeline.leaveBranches
    else pipeline
  let id := b.program.nodes.size
  let program :=
    (b.program.addNode segment line pipeline.id pipeline.scope).connect pipeline.tail id .pipe
  let references :=
    match segment.kind with
    | .poolWrite pool => b.references ++ [(pool, line)]
    | _ => b.references
  ({ b with program, references }, { pipeline with tail := id })

/-- Add one segment to the open pipeline; a segment that cannot be read is left out. -/
def addSegment (line : Nat) (state : Builder × OpenPipeline) (source : List Char) :
    Builder × OpenPipeline :=
  let (b, pipeline) := state
  match Segment.readChars source with
  | .error cause => (b.warn line (.malformedSegment cause (String.ofList source)), pipeline)
  | .ok segment =>
    if segment.kind.expects?.isSome then b.addBranch pipeline segment line
    else b.addOperator pipeline segment line

/-- Chain segments onto the open pipeline, if there is one. -/
def extend (b : Builder) (line : Nat) (segments : List (List Char)) : Builder :=
  match b.current with
  | none => b.warn line .orphanContinuation
  | some pipeline =>
    let (b, pipeline) := segments.foldl (addSegment line) (b, pipeline)
    { b with current := some pipeline }

/-- Start a pipeline at a source node. -/
def start (b : Builder) (segment : Segment) (line : Nat) : Builder :=
  -- Pipelines and nodes are numbered in the order in which they appear.
  let id := b.program.pipelineCount
  let root := b.program.nodes.size
  let program := b.program.addNode segment line id none
  { b with
    program := { program with pipelineCount := id + 1 },
    current := some { id, tail := root } }

/-- Start a stream. -/
def startStream (b : Builder) (live : Bool) (literal text : String) (line : Nat) : Builder :=
  if live then b.start ⟨.liveSource literal, "~?", [], text⟩ line
  else b.start ⟨.finiteSource literal, "~", [], text⟩ line

/-- Start the pipeline of a subscription. -/
def startSubscription (b : Builder) (pool text : String) (line : Nat) : Builder :=
  let subscription : Subscription := ⟨pool, b.program.pipelineCount, b.program.nodes.size, line⟩
  let b := b.start ⟨.poolAccess pool, pool, [], text⟩ line
  { b with
    program := { b.program with subscriptions := b.program.subscriptions ++ [subscription] },
    references := b.references ++ [(pool, line)] }

/-- Declare a pool; the later of two declarations wins. -/
def declare (b : Builder) (name initial : String) (line : Nat) : Builder :=
  let b := if b.program.pools.contains name then b.warn line (.duplicatePool name) else b
  { b with program := b.program.declare ⟨name, initial, line, false⟩ }

/-- Add what one line says. -/
def addStatement (b : Builder) (line : Nat) (text : String) : Statement → Builder
  | .importLibrary library localName =>
    let b := b.close
    { b with program :=
        { b.program with imports := b.program.imports ++ [⟨library, localName, line⟩] } }
  | .function name =>
    let b := b.close.warn line (.unsupportedFunction name)
    { b with program := { b.program with stubs := b.program.stubs ++ [⟨name, line⟩] } }
  | .pool name initial => b.close.declare name initial line
  | .stream live literal segments => (b.startStream live literal text line).extend line segments
  | .continuation segments =>
    { b with current := b.current.map OpenPipeline.leaveBranches }.extend line segments
  | .branch segments => b.extend line segments
  | .subscription pool segments =>
    (b.startSubscription pool text line).extend line segments
  | .malformed problem => b.close.warn line problem

/-- Add one logical line. -/
def addLine (b : Builder) (line : Source.Line) : Builder :=
  let cs := line.text.toList
  let b := if Source.isBalanced cs then b else b.warn line.number (.unbalanced line.text)
  b.addStatement line.number line.text (Statement.ofChars cs)

/-- Declare the pools that were referred to and never declared, each with the line of its
first reference. -/
def implyPools (p : Program) : List (String × Nat) → Program
  | [] => p
  | (pool, line) :: rest =>
    if p.pools.contains pool then implyPools p rest
    else implyPools ((p.warn line (.undeclaredPool pool)).declare ⟨pool, "null", line, true⟩) rest

/-- From each pool write to each subscription on its pool. -/
def feeds (p : Program) : List (NodeId × NodeId) :=
  p.nodes.toList.flatMap fun node =>
    match node.kind with
    | .poolWrite pool => (p.subscribersOf pool).map fun s => (node.id, s.root)
    | _ => []

/-- The finished program. -/
def finish (b : Builder) : Program :=
  let p := implyPools b.program b.references
  (feeds p).foldl (fun p (source, target) => p.connect source target .poolRead) p

end Builder

/-- The program of a source text. -/
def Program.parse (source : String) : Program :=
  let scanned := Source.scan source
  let b : Builder :=
    match scanned.unterminated with
    | some line => ({} : Builder).warn line .unterminatedComment
    | none => {}
  (scanned.lines.foldl Builder.addLine b).finish

end Sluice
