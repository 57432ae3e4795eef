/-
  Sluice.Engine

  Running a program: imported libraries are loaded, pools get their initial values, then the
  pipelines of finite sources run in order, live sources are activated, and subscriptions run
  once with the initial values of their pools.
-/

import Sluice.Program.Build
import Sluice.Run.Walk

namespace Sluice

variable {σ : Type}

namespace Exec

/-- Load the imported libraries; one that cannot be loaded is a warning. -/
def preloadImports (ctx : RunContext σ) : Exec σ Unit :=
  ctx.program.imports.forM fun i =>
    modify fun r =>
      match ctx.host.preload i.library r.state with
      | (.ok _, state) => { r with state }
      | (.error e, state) =>
        ({ r with state } : Run σ).warn (Warning.render ⟨i.line, .unknownImport e.message⟩)

/-- The pools of a program with their initial values and subscribers. -/
def initialPools (ctx : RunContext σ) : Except Halt PoolStore := do
  let declared ← ctx.program.pools.contents.foldlM
    (fun store d => store.declare d.name (Literal.read ctx.json d.initial))
    (PoolStore.ofCapacity ctx.config.historyCapacity)
  ctx.plan.subscriptions.foldlM (fun store s => store.subscribe s.pool s.pipeline) declared

/-- Run the pipelines of finite sources. -/
def runFinite (ctx : RunContext σ) : Exec σ Unit :=
  ctx.plan.finiteRoots.forM fun root => unlessStopped (execute ctx root none)

/-- Activate a live source, and run its pipeline if the settings say so. -/
def activate (ctx : RunContext σ) (root : NodeId) : Exec σ Unit := do
  match ctx.program.node? root with
  | none => return
  | some node =>
    let literal :=
      match node.kind with
      | .liveSource literal => literal
      | _ => ""
    modify fun r =>
      (r.count fun m => { m with liveSources := m.liveSources + 1 }).emit
        (.liveActivated node.pipeline literal)
    if ctx.config.runLiveSourcesOnce then execute ctx root none

/-- Activate the live sources. -/
def activateLive (ctx : RunContext σ) : Exec σ Unit :=
  ctx.plan.liveRoots.forM fun root => unlessStopped (activate ctx root)

/-- Run every subscription once with the initial value of its pool. -/
def fireSubscriptions (ctx : RunContext σ) (initial : PoolStore) : Exec σ Unit :=
  ctx.plan.subscriptions.forM fun s => unlessStopped <|
    notifySubscriber (execute ctx) ((initial.value? s.pool).getD .null) s

/-- The phases of a run after its start, at which the pools were the initial ones. -/
def runAll (ctx : RunContext σ) (initial : PoolStore) : Exec σ Unit := do
  preloadImports ctx
  runFinite ctx
  activateLive ctx
  if ctx.config.fireSubscribersOnStart then fireSubscriptions ctx initial

end Exec

/-- The settings and surroundings of runs. -/
structure Engine (σ : Type) where
  host : Host σ
  config : Config
  /-- The channel to an observer, if one listens. -/
  channel : Option Channel := none
  /-- What literals read strict JSON with. -/
  json : Json.Reader := Json.readChars?

namespace Engine

/-- An engine with an observer at the other end of a channel. -/
def withEvents (engine : Engine σ) (channel : Channel) : Engine σ :=
  { engine with channel := some channel }

/-- What a run works with. -/
def context (engine : Engine σ) (program : Program) : RunContext σ :=
  { host := engine.host
    config := engine.config
    channel := engine.channel
    json := engine.json
    program
    plan := .ofProgram program }

/-- The warnings that a run starts with. -/
def startWarnings (ctx : RunContext σ) : List String :=
  ctx.program.warnings.map Warning.render
    ++ ctx.plan.feedbackPools.map fun pool => s!"Subscribers of pool '{pool}' write back into it"

/-- The start of a run. -/
def startState (ctx : RunContext σ) (initial : PoolStore) (s : σ) : Run σ :=
  { state := s, pools := initial, channel := ctx.channel, warnings := (startWarnings ctx).toArray }

/-- The report of a finished run; the host hands over its warnings. -/
def finish (host : Host σ) (r : Run σ) : Report × σ :=
  let (warnings, state) := host.drainWarnings r.state
  let report : Report :=
    { poolValues := r.pools.values
      pools := r.pools.pools
      errors := r.errors.toList
      warnings := r.warnings.toList ++ warnings
      output := r.output.toList
      metrics := r.metrics }
  (report.finalize, state)

/-- A finished run. -/
structure Finished (σ : Type) where
  report : Report
  /-- Everything that happened, in order. -/
  events : List Event
  /-- The channel to an observer after the run. -/
  channel : Option Channel
  state : σ

/-- A run that was halted, with the lines it had printed. -/
structure Halted where
  halt : Halt
  output : List String

/-- Run a program. -/
def run (engine : Engine σ) (program : Program) (s : σ) : Except Halted (Finished σ) :=
  let ctx := engine.context program
  match Exec.initialPools ctx with
  | .error halt => .error { halt, output := [] }
  | .ok initial =>
    match (Exec.runAll ctx initial).run.run (startState ctx initial s) with
    | (.ok _, r) =>
      let (report, state) := finish engine.host r
      .ok { report, events := r.events.toList, channel := r.channel, state }
    | (.error halt, r) => .error { halt, output := r.output.toList }

/-- Parse and run source text. -/
def runSource (engine : Engine σ) (source : String) (s : σ) : Except Halted (Finished σ) :=
  engine.run (.parse source) s

end Engine

end Sluice
