/-
  Sluice.Plan

  What a run needs to know of a program, worked out once: the nodes that follow each node,
  where a branch that is not taken continues, where pipelines start, and which pools have
  subscribers that write back into them.

  Connections to or from ids that are no node are left out.
-/

import Sluice.Plan.Search
import Sluice.Program.Graph

namespace Sluice

/-- The value on its way through a pipeline, with the decision of the last split. -/
structure Packet where
  value : Value := .null
  selector : Option Bool := none

namespace Packet

/-- The decision of the last split, or else the truth of the value. -/
def decision (packet : Packet) : Bool :=
  packet.selector.getD packet.value.isTruthy

end Packet

/-- Counts of a plan. -/
structure PlanStats where
  nodes : Nat
  pipeEdges : Nat
  poolEdges : Nat
  branches : Nat
  unreachable : Nat
deriving Repr, DecidableEq

/-- A program made ready to run. -/
structure Plan where
  /-- For each node the nodes that its data flows to, in the order of the connections. -/
  successors : Array (List NodeId)
  /-- For each node the decision it continues on, if it is a branch. -/
  expectations : Array (Option Bool)
  /-- For each node where a run continues if it is a branch that is not taken. -/
  joins : Array (Option NodeId)
  finiteRoots : List NodeId
  liveRoots : List NodeId
  subscriptions : List Subscription
  /-- Pools with a subscription that reaches itself, in the order of the subscriptions. -/
  feedbackPools : List String
  stats : PlanStats

namespace Program

/-- Whether both ends of a connection are nodes. -/
def isInside (p : Program) (c : Connection) : Bool :=
  decide (c.source < p.nodes.size) && decide (c.target < p.nodes.size)

/-- Where data flows from a node, in the order of the connections. -/
def pipeTargets (p : Program) (id : NodeId) : List NodeId :=
  p.connections.toList.filterMap fun c =>
    if c.source = id ∧ c.kind = .pipe ∧ p.isInside c then some c.target else none

/-- Where connections of any kind lead from a node. -/
def allTargets (p : Program) (id : NodeId) : List NodeId :=
  p.connections.toList.filterMap fun c =>
    if c.source = id ∧ p.isInside c then some c.target else none

/-- Follow first successors through the scope of a branch, for at most as many steps as there
are nodes, to the first node outside it. -/
def joinFrom (p : Program) (branch : NodeId) : Nat → NodeId → Option NodeId
  | 0, _ => none
  | fuel + 1, current =>
    match (p.pipeTargets current).head? with
    | none => none
    | some next =>
      match p.node? next with
      | none => none
      | some node => if node.scope = some branch then joinFrom p branch fuel next else some next

/-- Where a run continues when a branch is not taken: the first node outside the branch's
scope along first successors. -/
def joinPoint (p : Program) (branch : NodeId) : Option NodeId :=
  p.joinFrom branch p.nodes.size branch

/-- For each node, where connections of any kind lead from it. -/
def targetTable (p : Program) : Array (List NodeId) :=
  (Array.range p.nodes.size).map p.allTargets

/-- Whether a node leads back to itself over connections of any kind. -/
def reachesItself (p : Program) (id : NodeId) : Bool :=
  Plan.reaches p.targetTable id id == some true

end Program

namespace Plan

/-- Sources of one class, in order. -/
def rootsWhere (p : Program) (wanted : NodeKind → Bool) : List NodeId :=
  p.nodes.toList.filterMap fun node => if wanted node.kind then some node.id else none

/-- The pools with a subscription that reaches itself, each once. -/
def feedback (p : Program) : List String :=
  (p.subscriptions.filter fun s => p.reachesItself s.root).foldl
    (fun pools s => if pools.contains s.pool then pools else pools ++ [s.pool]) []

/-- The plan of a program. -/
def ofProgram (p : Program) : Plan :=
  let successors := (Array.range p.nodes.size).map p.pipeTargets
  let finiteRoots := rootsWhere p fun kind =>
    match kind with
    | .finiteSource _ => true
    | _ => false
  let liveRoots := rootsWhere p fun kind =>
    match kind with
    | .liveSource _ => true
    | _ => false
  -- Whatever a run can start at.
  let roots := finiteRoots ++ liveRoots ++ p.subscriptions.map (·.root)
  { successors
    expectations := p.nodes.map fun node => node.kind.expects?
    joins := p.nodes.map fun node =>
      if node.kind.expects?.isSome then p.joinPoint node.id else none
    finiteRoots
    liveRoots
    subscriptions := p.subscriptions
    feedbackPools := feedback p
    stats :=
      { nodes := p.nodes.size
        pipeEdges := successors.foldl (fun total targets => total + targets.length) 0
        poolEdges := p.connections.toList.countP fun c => decide (c.kind = .poolRead)
        branches := p.nodes.toList.countP fun node => node.kind.expects?.isSome
        unreachable := ((reachable p.targetTable p.nodes.size roots).map unmarked).getD 0 } }

/-- Nothing to run. -/
def isEmpty (plan : Plan) : Bool :=
  plan.finiteRoots.isEmpty && plan.liveRoots.isEmpty && plan.subscriptions.isEmpty

/-- Where a branch that is not taken continues. -/
def join? (plan : Plan) (branch : NodeId) : Option NodeId :=
  (plan.joins[branch]?).join

/-- Where a run goes after a node: its only successor, or of several the first that is a branch
on the packet's decision, or else the first. -/
def next? (plan : Plan) (id : NodeId) (packet : Packet) : Option NodeId :=
  match plan.successors[id]?.getD [] with
  | [] => none
  | [only] => some only
  | first :: others =>
    -- Several successors are the branches of a group, and perhaps what follows them.
    ((first :: others).find? fun c =>
      (plan.expectations[c]?).join == some packet.decision).or (some first)

/-- The subscriptions on a pool, in order. -/
def subscribersOf (plan : Plan) (pool : String) : List Subscription :=
  plan.subscriptions.filter fun s => s.pool == pool

end Plan

end Sluice
