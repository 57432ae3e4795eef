/-
  Sluice.Run.Walk

  The walk of a pipeline. A packet goes from the root of the pipeline from node to node until
  a node has no successor, ends the pipeline, or fails. A branch that is not taken is left for
  the node where it joins. A write to a pool runs the pool's subscribers before the walk goes on.

  A walk visits at most as many nodes as its budget, and subscribers run at most as many levels
  deep as the settings say, so every run ends.
-/

import Sluice.Run.Lens

namespace Sluice

variable {σ : Type}

/-- What follows on a node. -/
inductive Flow where
  /-- Go on to the successor. -/
  | next (packet : Packet)
  /-- Go on where a branch joins. -/
  | jump (target : NodeId) (packet : Packet)
  /-- End the pipeline. -/
  | stop (packet : Packet)

namespace Step

/-- The line that `print` writes: its arguments, if any, and the value. -/
def printedText (value : Value) (args : Arguments) : String :=
  Text.join " " (args.map Value.render ++ [value.render])

/-- Print a value. -/
def print (node : Node) (value : Value) (args : Arguments) : Step σ Unit := do
  let text := printedText value args
  modify fun r => { (r.emit (.printed node.pipeline text)) with output := r.output.push text }

/-- Run an operator node. -/
def runOperator (ctx : RunContext σ) (node : Node) (packet : Packet) : Step σ Packet := do
  let args ← evalArguments ctx node node.arguments
  let value ← invoke ctx node node.name 0 packet.value args
  if node.name = "print" then print node value args
  else if node.name = "ui_render" then modify (Run.emit (.rendered node.pipeline value))
  return { packet with value }

/-- Write a pool, which is made with a warning if it is missing, and run its subscribers. -/
def writePool (notify : String → Value → Exec σ Unit) (node : Node) (pool : String)
    (value : Value) : Step σ Unit := do
  let r ← get
  -- A pool that nobody declared comes into being here.
  if !r.pools.contains pool then
    match r.pools.ensure pool with
    | .error h => halt h
    | .ok pools => set { (r.warn (Warning.render ⟨node.line, .undeclaredWrite pool⟩)) with pools }
  modify fun r =>
    let (updates, pools) := r.pools.write pool value
    { (r.emit (.poolUpdated pool value (updates.getD 0))) with
      pools
      metrics := { r.metrics with poolWrites := r.metrics.poolWrites + 1 } }
  ExceptT.lift (notify pool value)

/-- Run a node. Only the first node of a pipeline has a seed, which stands for the value of the
pool that it reads. -/
def runNode (ctx : RunContext σ) (notify : String → Value → Exec σ Unit) (node : Node)
    (packet : Packet) (seed : Option Value) : Step σ Flow := do
  match node.kind with
  | .finiteSource literal | .liveSource literal =>
    return .next { value := Literal.read ctx.json literal }
  | .poolAccess pool =>
    let value := (seed.or ((← get).pools.value? pool)).getD .null
    return .next { value }
  | .operator => return .next (← runOperator ctx node packet)
  | .lens lens body => return .next (← applyLens ctx node lens body packet)
  | .branch expects =>
    if packet.decision = expects then return .next packet
    else
      -- The branch is passed over as a whole.
      match ctx.plan.join? node.id with
      | some target => return .jump target packet
      | none => return .stop packet
  | .poolWrite pool =>
    writePool notify node pool packet.value
    return .next packet

/-- Arrive at a node: a cancelled run ends here, and else the step counts. Beyond the graph
there is no node. -/
def arrive (ctx : RunContext σ) (id : NodeId) : Step σ (Option Node) := do
  match ctx.program.node? id with
  | none => return none
  | some node =>
    if ctx.host.isCancelled (← get).state then failAt node node.name .cancelled
    modify (Run.count fun m => { m with steps := m.steps + 1 })
    return some node

/-- Walk on from a node, with a budget of nodes to visit. -/
def walk (ctx : RunContext σ) (notify : String → Value → Exec σ Unit) :
    (budget : Nat) → NodeId → Packet → Option Value → Step σ Value
  | 0, id, packet, _ => do
    match ← arrive ctx id with
    | none => return packet.value
    | some node =>
      failAt node node.name (.limitExceeded .pipelineSteps ctx.config.maxSteps)
  | budget + 1, id, packet, seed => do
    match ← arrive ctx id with
    | none => return packet.value
    | some node =>
      match ← runNode ctx notify node packet seed with
      | .stop packet => return packet.value
      | .jump target packet => walk ctx notify budget target packet none
      | .next packet =>
        -- A terminal operator ends the pipeline, whatever is connected behind it.
        if node.terminal then return packet.value
        else
          match ctx.plan.next? id packet with
          | some next => walk ctx notify budget next packet none
          | none => return packet.value

end Step

namespace Exec

/-- Run one pipeline and take note of how it ends. -/
def runPipeline (ctx : RunContext σ) (notify : String → Value → Exec σ Unit) (root : NodeId)
    (seed : Option Value) : Exec σ Unit := do
  let pipeline := ((ctx.program.node? root).map (·.pipeline)).getD 0
  modify fun r =>
    (r.count fun m => { m with pipelinesRun := m.pipelinesRun + 1 }).emit (.started pipeline root)
  match ← (Step.walk ctx notify ctx.config.maxSteps root {} seed).run with
  | .ok value => modify (Run.emit (.completed pipeline value))
  | .error failure => modify (Run.fail pipeline failure)

/-- Count a notification and run its pipeline. -/
def notifySubscriber (run : NodeId → Option Value → Exec σ Unit) (value : Value)
    (s : Subscription) : Exec σ Unit := do
  modify (Run.count fun m =>
    { m with subscriberNotifications := m.subscriberNotifications + 1 })
  run s.root (some value)

/-- A subscriber too deep to run counts as failed. -/
def refuseSubscriber (ctx : RunContext σ) (pool : String) (s : Subscription) : Exec σ Unit :=
  modify (Run.fail s.pipeline
    { cause := .limitExceeded .subscriberDepth ctx.config.maxSubscriberDepth
      location :=
        { node := some s.root
          pipeline := some s.pipeline
          operator := some pool
          line := (ctx.program.node? s.root).map (·.line) } })

/-- Run a pipeline with some levels of subscribers below it. -/
def runNested (ctx : RunContext σ) : (levels : Nat) → NodeId → Option Value → Exec σ Unit
  | 0, root, seed =>
    runPipeline ctx
      (fun pool _ => (ctx.plan.subscribersOf pool).forM fun s =>
        unlessStopped (refuseSubscriber ctx pool s))
      root seed
  | levels + 1, root, seed =>
    runPipeline ctx
      (fun pool value => (ctx.plan.subscribersOf pool).forM fun s =>
        unlessStopped (notifySubscriber (runNested ctx levels) value s))
      root seed

/-- Run a pipeline with all levels of subscribers below it. -/
def execute (ctx : RunContext σ) (root : NodeId) (seed : Option Value) : Exec σ Unit :=
  runNested ctx ctx.config.maxSubscriberDepth root seed

end Exec

end Sluice
