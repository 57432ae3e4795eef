/-
  Sluice.Program.Graph

  A program as a graph: nodes joined by connections, the table of declared pools, and the
  subscriptions, imports and warnings in source order. A node's id is its index, and so is a
  connection's.
-/

import Sluice.Program.Segment

namespace Sluice

/-- What a connection carries. -/
inductive ConnectionKind where
  /-- Data from one node of a pipeline to the next. -/
  | pipe
  /-- Data from a pool write to the start of a subscription on that pool. -/
  | poolRead
  /-- Reserved: no source text produces it. -/
  | poolWrite
deriving Repr, DecidableEq

/-- A directed edge between two nodes. -/
structure Connection where
  id : Nat
  source : NodeId
  target : NodeId
  kind : ConnectionKind
deriving Repr, DecidableEq

/-- A pool with the literal of its initial value; `implied` pools were referred to and never
declared. -/
structure PoolDeclaration where
  name : String
  initial : String
  line : Nat
  implied : Bool
deriving Repr, DecidableEq

/-- A pipeline that runs on every write to a pool. -/
structure Subscription where
  pool : String
  pipeline : PipelineId
  root : NodeId
  line : Nat
deriving Repr, DecidableEq

/-- A library to be loaded ahead of use. -/
structure Import where
  library : String
  localName : Option String
  line : Nat
deriving Repr, DecidableEq

/-- A function definition, which is recorded and never executed. -/
structure FunctionStub where
  name : String
  line : Nat
deriving Repr, DecidableEq

/-- What is wrong with a line, or with a reference. -/
inductive Problem where
  | unterminatedComment
  | unbalanced (text : String)
  | unreadableImport (rest : String)
  | unsupportedFunction (name : String)
  | malformedPool (rest : String)
  | duplicatePool (pool : String)
  | malformedSubscription (text : String)
  | orphanContinuation
  | malformedSegment (cause : SegmentError) (segment : String)
  | unrecognisedLine (text : String)
  | undeclaredPool (pool : String)
  /-- A run wrote a pool that no declaration made. -/
  | undeclaredWrite (pool : String)
  /-- A run could not load an imported library. -/
  | unknownImport (reason : String)
deriving Repr, DecidableEq

namespace Problem

/-- The class of a problem, as warnings spell it. -/
def kind : Problem → String
  | unterminatedComment => "UnterminatedBlockComment"
  | unbalanced _ => "UnbalancedDelimiters"
  | unreadableImport _ | unknownImport _ => "UnknownImport"
  | unsupportedFunction _ => "UnsupportedFunction"
  | malformedPool _ => "MalformedPoolDeclaration"
  | duplicatePool _ => "DuplicatePool"
  | malformedSubscription _ => "MalformedSubscription"
  | orphanContinuation => "OrphanContinuation"
  | malformedSegment .. | unrecognisedLine _ => "MalformedSegment"
  | undeclaredPool _ | undeclaredWrite _ => "UndeclaredPoolReference"

/-- The wording of a problem. -/
def message : Problem → String
  | unterminatedComment => "block comment is never closed"
  | unbalanced text => s!"unbalanced brackets or quotes in `{text}`"
  | unreadableImport rest => s!"cannot read import `{rest}`"
  | unsupportedFunction name => s!"function definitions are not supported, `{name}` ignored"
  | malformedPool rest => s!"expected `let NAME = <|> VALUE`, found `let {rest}`"
  | duplicatePool pool => s!"pool '{pool}' declared again, the later declaration wins"
  | malformedSubscription text => s!"expected `POOL -> PIPELINE`, found `{text}`"
  | orphanContinuation => "continuation without an open pipeline"
  | malformedSegment cause segment => cause.message ++ s!": `{segment}`"
  | unrecognisedLine text => s!"unrecognised line `{text}`"
  | undeclaredPool pool => s!"pool '{pool}' is never declared, created with null"
  | undeclaredWrite pool => s!"pool '{pool}' written before declaration, created with null"
  | unknownImport reason => reason

end Problem

/-- A problem and the line it was found on. -/
structure Warning where
  line : Nat
  problem : Problem
deriving Repr, DecidableEq

/-- A warning as reports show it. -/
def Warning.render (w : Warning) : String :=
  s!"line {w.line}: " ++ w.problem.kind ++ ": " ++ w.problem.message

/-- A program graph. -/
structure Program where
  nodes : Array Node := #[]
  connections : Array Connection := #[]
  pools : Record PoolDeclaration := []
  subscriptions : List Subscription := []
  imports : List Import := []
  stubs : List FunctionStub := []
  warnings : List Warning := []
  pipelineCount : Nat := 0

namespace Program

/-- The node with an id. -/
def node? (p : Program) (id : NodeId) : Option Node :=
  p.nodes[id]?

/-- Add a segment as a node; its id is the next free index. -/
def addNode (p : Program) (segment : Segment) (line : Nat) (pipeline : PipelineId)
    (scope : Option NodeId) : Program :=
  { p with
    nodes := p.nodes.push
      { segment with id := p.nodes.size, line, terminal := isTerminalName segment.name,
                     pipeline, scope } }

/-- Add a connection; its id is the next free index. -/
def connect (p : Program) (source target : NodeId) (kind : ConnectionKind) : Program :=
  { p with connections := p.connections.push ⟨p.connections.size, source, target, kind⟩ }

/-- Add a warning. -/
def warn (p : Program) (line : Nat) (problem : Problem) : Program :=
  { p with warnings := p.warnings ++ [⟨line, problem⟩] }

/-- Declare a pool, replacing a declaration of the same name. -/
def declare (p : Program) (pool : PoolDeclaration) : Program :=
  { p with pools := p.pools.set pool.name pool }

/-- The subscriptions on a pool, in source order. -/
def subscribersOf (p : Program) (pool : String) : List Subscription :=
  p.subscriptions.filter fun s => s.pool == pool

/-- The stream sources, in source order. -/
def streamRoots (p : Program) : List NodeId :=
  p.nodes.toList.filterMap fun node =>
    match node.kind with
    | .finiteSource _ | .liveSource _ => some node.id
    | _ => none

end Program

end Sluice
