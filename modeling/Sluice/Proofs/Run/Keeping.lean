/-
  Sluice.Proofs.Run.Keeping

  What a run can do to its state, said once. Beside what operators and lenses do, a walk counts
  its steps, prints and renders; a write makes a pool or changes one; a run of a pipeline is
  noted at its start and at its end. `Walkable` and `Lasting` list these moves for an invariant,
  and an invariant that survives them survives the walk of a pipeline and the phases of a run.
  `Noting` leaves out the note of a failure, for invariants that have to look at how a walk failed.

  Where a walk can get to matters to some invariants, so a walk is judged on a set of nodes that
  it never leaves. What notifying does is a hypothesis up to the end: it is a run of other
  pipelines, and each invariant has its own induction over the levels of subscribers.
-/

import Sluice.Engine
import Sluice.Proofs.Pool.Writes
import Sluice.Proofs.Run.Quiet
import Sluice.Proofs.Walk.Visits

namespace Sluice

variable {σ α β : Type}

-- ============================================================================
-- The moves of a run
-- ============================================================================

namespace Run

/-- The state after a line was printed. -/
def printed (r : Run σ) (pipeline : PipelineId) (text : String) : Run σ :=
  { (r.emit (.printed pipeline text)) with output := r.output.push text }

/-- The state after a step was counted. -/
def stepped (r : Run σ) : Run σ :=
  r.count fun m => { m with steps := m.steps + 1 }

/-- The state in which a write of a pool is told. -/
def written (r : Run σ) (pool : String) (value : Value) : Run σ :=
  let (updates, pools) := r.pools.write pool value
  { (r.emit (.poolUpdated pool value (updates.getD 0))) with
    pools
    metrics := { r.metrics with poolWrites := r.metrics.poolWrites + 1 } }

/-- The state in which the walk of a notified subscriber starts. -/
def notified (r : Run σ) : Run σ :=
  r.count fun m => { m with subscriberNotifications := m.subscriberNotifications + 1 }

/-- The state after a live source was activated. -/
def activated (r : Run σ) (pipeline : PipelineId) (literal : String) : Run σ :=
  (r.count fun m => { m with liveSources := m.liveSources + 1 }).emit
    (.liveActivated pipeline literal)

end Run

section

variable (ctx : RunContext σ) (good : Operator σ → Prop) (causes : Cause → Prop)
  (halts : Halt → Prop) (inv : Run σ → Prop)

/-- An invariant survives what a node does that writes no pool. -/
structure Showing : Prop extends Quiet ctx good causes halts inv where
  print : ∀ {r : Run σ} (pipeline : PipelineId) (text : String), inv r →
    inv (r.printed pipeline text)
  render : ∀ {r : Run σ} (pipeline : PipelineId) (value : Value), inv r →
    inv (r.emit (.rendered pipeline value))

/-- An invariant survives what a walk does between two writes. -/
structure Walkable : Prop extends Showing ctx good causes halts inv where
  step : ∀ {r : Run σ}, inv r → inv r.stepped
  cancelled : ∀ {r : Run σ}, inv r → ctx.host.isCancelled r.state = true → causes .cancelled
  exhausted : causes (.limitExceeded .pipelineSteps ctx.config.maxSteps)

/-- An invariant survives a write, up to the notice of it. -/
structure Writable (halts : Halt → Prop) (inv : Run σ → Prop) : Prop where
  make : ∀ {r : Run σ} {pool : String} {pools : PoolStore} (message : String), inv r →
    r.pools.ensure pool = .ok pools → inv { (r.warn message) with pools }
  full : ∀ {r : Run σ} {pool : String} {h : Halt}, inv r →
    r.pools.ensure pool = .error h → halts h
  write : ∀ {r : Run σ} {pool : String} (value : Value), inv r → r.pools.contains pool = true →
    inv (r.written pool value)

/-- An invariant survives whatever a run does, but for taking note of a failure. -/
structure Noting : Prop extends Walkable ctx good causes halts inv, Writable halts inv where
  start : ∀ {r : Run σ} (pipeline : PipelineId) (root : NodeId), inv r →
    inv (r.started pipeline root)
  complete : ∀ {r : Run σ} (pipeline : PipelineId) (value : Value), inv r →
    inv (r.emit (.completed pipeline value))
  notify : ∀ {r : Run σ}, inv r → inv r.notified
  activate : ∀ {r : Run σ} (pipeline : PipelineId) (literal : String), inv r →
    inv (r.activated pipeline literal)
  preload : ∀ {r : Run σ} (library : String), inv r →
    inv { r with state := (ctx.host.preload library r.state).2 }

/-- An invariant survives whatever a run does. -/
structure Lasting : Prop extends Noting ctx good causes halts inv where
  fail : ∀ {r : Run σ} (pipeline : PipelineId) {failure : Failure}, inv r →
    causes failure.cause → inv (r.fail pipeline failure)

/-- A set of nodes that no walk leaves. -/
structure RunContext.Closed (nodes : NodeId → Prop) : Prop where
  next : ∀ {id target : NodeId} {packet : Packet}, nodes id →
    ctx.plan.next? id packet = some target → nodes target
  join : ∀ {id target : NodeId} {node : Node}, nodes id → ctx.program.node? id = some node →
    ctx.plan.join? node.id = some target → nodes target

end

variable {ctx : RunContext σ} {good : Operator σ → Prop} {causes : Cause → Prop}
  {halts : Halt → Prop} {inv : Run σ → Prop}

/-- No walk leaves the set of all nodes. -/
theorem RunContext.closed_univ : ctx.Closed fun _ => True :=
  ⟨fun _ _ => trivial, fun _ _ _ => trivial⟩

-- ============================================================================
-- Walks
-- ============================================================================

namespace Step

/-- What follows a part that preserves an invariant may rely on what the part returns. -/
theorem keeps_bind_of {Q : α → Prop} {m : Step σ α} {f : α → Step σ β}
    (hm : Keeps causes halts inv m) (hreturns : Returns Q m)
    (hf : ∀ a, Q a → Keeps causes halts inv (f a)) : Keeps causes halts inv (m >>= f) := by
  intro r hr
  have h := hm r hr
  rw [outcome_bind]
  match hout : m.outcome r with
  | (.ok (.ok a), r') =>
    rw [hout] at h
    exact hf a (hreturns r a r' hout) r' h
  | (.ok (.error e), r') =>
    rw [hout] at h
    exact h
  | (.error e, r') =>
    rw [hout] at h
    exact h

theorem keeps_runOperator (hw : Showing ctx good causes halts inv) (node : Node)
    (packet : Packet) : Keeps causes halts inv (runOperator ctx node packet) := by
  have hq := hw.toQuiet
  refine keeps_bind (keeps_evalArguments hq node node.arguments) fun args => ?_
  refine keeps_bind (keeps_invoke hq node node.name 0 packet.value args) fun value => ?_
  split
  · refine keeps_bind (keeps_modify fun r hr => ?_) fun _ => keeps_pure _
    exact hw.print node.pipeline (printedText value args) hr
  · split
    · exact keeps_bind (keeps_modify fun r hr => hw.render _ _ hr) fun _ => keeps_pure _
    · exact keeps_pure _

/-- Of all nodes only a write reaches beyond its pipeline. -/
theorem keeps_runNode (hw : Showing ctx good causes halts inv)
    {notify : String → Value → Exec σ Unit} {node : Node} {packet : Packet} (seed : Option Value)
    (hwrite : ∀ pool, node.kind = .poolWrite pool →
      Keeps causes halts inv (writePool notify node pool packet.value)) :
    Keeps causes halts inv (runNode ctx notify node packet seed) := by
  unfold runNode
  split
  · exact keeps_pure _
  · exact keeps_pure _
  · exact keeps_get_bind fun _ => keeps_pure _
  · exact keeps_bind (keeps_runOperator hw node packet) fun _ => keeps_pure _
  · next lens body _ =>
    exact keeps_bind (keeps_applyLens hw.toQuiet node lens body packet) fun _ => keeps_pure _
  · split
    · exact keeps_pure _
    · split
      · exact keeps_pure _
      · exact keeps_pure _
  · next pool hkind => exact keeps_bind (hwrite pool hkind) fun _ => keeps_pure _

theorem keeps_arrive (hw : Walkable ctx good causes halts inv) (id : NodeId) :
    Keeps causes halts inv (arrive ctx id) := by
  intro r hr
  unfold arrive
  split
  · exact hr
  · rw [outcome_get_bind]
    split
    · next hcancelled => exact ⟨hr, hw.cancelled hr hcancelled⟩
    · exact hw.step hr

theorem returns_arrive (ctx : RunContext σ) (id : NodeId) :
    Returns (fun arrived => ∀ node, arrived = some node → ctx.program.node? id = some node)
      (arrive ctx id) := by
  intro r arrived r' h node hnode
  rw [hnode] at h
  exact node?_of_arrive h

end Step

/-- A jump leads to where the branch at a node joins. -/
theorem Visit.Lawful.join?_eq {plan : Plan} {id target : NodeId} {node : Node}
    {packet packet' : Packet}
    (h : Visit.Lawful plan ⟨id, node, packet, some (.jump target packet')⟩) :
    plan.join? node.id = some target := by
  unfold Visit.Lawful at h
  simp only at h
  split at h
  · split at h
    · cases h
    · split at h
      · next joined hjoin =>
        cases h
        exact hjoin
      · cases h
  · obtain ⟨value, hvalue⟩ := h _ rfl
    cases hvalue
  · obtain ⟨value, hvalue⟩ := h _ rfl
    cases hvalue
  · obtain ⟨value, hvalue⟩ := h _ rfl
    cases hvalue
  · obtain ⟨value, hvalue, -⟩ := h _ rfl
    cases hvalue
  · obtain ⟨value, hvalue⟩ := h _ rfl
    cases hvalue
  · obtain ⟨value, hvalue⟩ := h _ rfl
    cases hvalue

/-- A walk over nodes of a set preserves an invariant if the writes at these nodes do. -/
theorem Step.keeps_walk (hw : Walkable ctx good causes halts inv)
    {notify : String → Value → Exec σ Unit} {nodes : NodeId → Prop} (hclosed : ctx.Closed nodes)
    (hwrite : ∀ {id node pool}, nodes id → ctx.program.node? id = some node →
      node.kind = .poolWrite pool →
      ∀ value, Keeps causes halts inv (writePool notify node pool value))
    (budget : Nat) {id : NodeId} (hid : nodes id) (packet : Packet) (seed : Option Value) :
    Keeps causes halts inv (walk ctx notify budget id packet seed) := by
  induction budget generalizing id packet seed with
  | zero =>
    refine keeps_bind (keeps_arrive hw id) fun arrived => ?_
    cases arrived with
    | none => exact keeps_pure _
    | some node => exact keeps_failAt hw.exhausted
  | succ budget ih =>
    refine keeps_bind_of (keeps_arrive hw id) (returns_arrive ctx id) fun arrived harrived => ?_
    cases arrived with
    | none => exact keeps_pure _
    | some node =>
      have hnode := harrived node rfl
      have hlawful : Returns (fun flow => Visit.Lawful ctx.plan ⟨id, node, packet, some flow⟩)
          (runNode ctx notify node packet seed) := returns_runNode
      refine keeps_bind_of
        (keeps_runNode hw.toShowing seed fun pool hkind => hwrite hid hnode hkind _) hlawful
        fun flow hflow => ?_
      cases flow with
      | stop packet => exact keeps_pure _
      | jump target packet => exact ih (hclosed.join hid hnode hflow.join?_eq) packet none
      | next packet =>
        simp only
        split
        · exact keeps_pure _
        · split
          · next target htarget => exact ih (hclosed.next hid htarget) packet none
          · exact keeps_pure _

-- ============================================================================
-- Parts of a run
-- ============================================================================

namespace Exec

/-- A part of a run preserves an invariant, unless it ends in a halt that `halts` allows. -/
def Keeps (halts : Halt → Prop) (inv : Run σ → Prop) (m : Exec σ α) : Prop :=
  ∀ r, inv r →
    match m.outcome r with
    | (.ok _, r') => inv r'
    | (.error h, _) => halts h

theorem keeps_pure (a : α) : Keeps halts inv (pure a : Exec σ α) :=
  fun _ hr => hr

theorem keeps_modify {f : Run σ → Run σ} (h : ∀ r, inv r → inv (f r)) :
    Keeps halts inv (modify f : Exec σ Unit) :=
  fun r hr => h r hr

theorem keeps_bind {m : Exec σ α} {f : α → Exec σ β} (hm : Keeps halts inv m)
    (hf : ∀ a, Keeps halts inv (f a)) : Keeps halts inv (m >>= f) := by
  intro r hr
  have h := hm r hr
  rw [outcome_bind]
  match hout : m.outcome r with
  | (.ok a, r') =>
    rw [hout] at h
    exact hf a r' h
  | (.error e, r') =>
    rw [hout] at h
    exact h

theorem keeps_unlessStopped {m : Exec σ Unit} (hm : Keeps halts inv m) :
    Keeps halts inv (unlessStopped m) := by
  intro r hr
  rw [outcome_unlessStopped]
  by_cases hstopped : r.stopped
  · rw [if_pos hstopped]
    exact hr
  · rw [if_neg hstopped]
    exact hm r hr

theorem keeps_forM {f : α → Exec σ Unit} (as : List α) (hf : ∀ a ∈ as, Keeps halts inv (f a)) :
    Keeps halts inv (as.forM f) := by
  induction as with
  | nil => exact keeps_pure ()
  | cons a rest ih =>
    refine keeps_bind (hf a List.mem_cons_self) fun _ => ih fun b hb => ?_
    exact hf b (List.mem_cons_of_mem a hb)

end Exec

/-- What is lifted into a pipeline's run preserves what it preserves on its own. -/
theorem Step.keeps_lift {m : Exec σ α} (hm : m.Keeps halts inv) :
    Keeps causes halts inv (ExceptT.lift m : Step σ α) := by
  intro r hr
  have h := hm r hr
  rw [outcome_lift]
  match hout : m.outcome r with
  | (.ok a, r') =>
    rw [hout] at h
    exact h
  | (.error e, r') =>
    rw [hout] at h
    exact h

/-- A write makes its pool if it is missing, changes it, and notifies. -/
theorem Step.keeps_writePool (hw : Writable halts inv)
    {notify : String → Value → Exec σ Unit} {pool : String} {value : Value}
    (hnotify : (notify pool value).Keeps halts inv) (node : Node) :
    Keeps causes halts inv (writePool notify node pool value) := by
  have htold : ∀ {r : Run σ}, inv r → r.pools.contains pool = true →
      Ends causes halts inv (Step.outcome (ExceptT.lift (notify pool value))
        (r.written pool value)) :=
    fun hr hcontains => keeps_lift hnotify _ (hw.write value hr hcontains)
  intro r hr
  unfold writePool
  rw [outcome_get_bind]
  match hcontains : r.pools.contains pool with
  | true => exact htold hr hcontains
  | false =>
    match hensure : r.pools.ensure pool with
    | .error h => exact hw.full hr hensure
    | .ok pools => exact htold (hw.make _ hr hensure) (PoolStore.contains_of_ensure hensure)

namespace Exec

/-- A run of a pipeline over nodes of a set preserves an invariant if notifying does, wherever
one of these nodes writes, and if the note of the walk's failure does. -/
theorem keeps_runPipeline_of (hn : Noting ctx good causes halts inv)
    {notify : String → Value → Exec σ Unit} {nodes : NodeId → Prop} (hclosed : ctx.Closed nodes)
    (hnotify : ∀ {id node pool}, nodes id → ctx.program.node? id = some node →
      node.kind = .poolWrite pool → ∀ value, (notify pool value).Keeps halts inv)
    {root : NodeId} (hroot : nodes root) (seed : Option Value)
    (hfail : ∀ {r r' failure}, inv r' → causes failure.cause →
      (Step.walk ctx notify ctx.config.maxSteps root {} seed).outcome r =
        (.ok (.error failure), r') → inv (r'.fail (ctx.pipelineOf root) failure)) :
    (runPipeline ctx notify root seed).Keeps halts inv := by
  intro r hr
  have hwalk := Step.keeps_walk hn.toWalkable hclosed
    (fun hid hnode hkind value =>
      Step.keeps_writePool hn.toWritable (hnotify hid hnode hkind value) _)
    ctx.config.maxSteps hroot {} seed _ (hn.start (ctx.pipelineOf root) root hr)
  rw [outcome_runPipeline]
  match hout : (Step.walk ctx notify ctx.config.maxSteps root {} seed).outcome
    (r.started (ctx.pipelineOf root) root) with
  | (.error h, r') =>
    rw [hout] at hwalk
    exact hwalk
  | (.ok (.ok value), r') =>
    rw [hout] at hwalk
    exact hn.complete _ value hwalk
  | (.ok (.error failure), r') =>
    rw [hout] at hwalk
    exact hfail hwalk.1 hwalk.2 hout

/-- A run of a pipeline over nodes of a set preserves an invariant if notifying does, wherever
one of these nodes writes. -/
theorem keeps_runPipeline (hl : Lasting ctx good causes halts inv)
    {notify : String → Value → Exec σ Unit} {nodes : NodeId → Prop} (hclosed : ctx.Closed nodes)
    (hnotify : ∀ {id node pool}, nodes id → ctx.program.node? id = some node →
      node.kind = .poolWrite pool → ∀ value, (notify pool value).Keeps halts inv)
    {root : NodeId} (hroot : nodes root) (seed : Option Value) :
    (runPipeline ctx notify root seed).Keeps halts inv :=
  keeps_runPipeline_of hl.toNoting hclosed hnotify hroot seed fun hr hcause _ =>
    hl.fail _ hr hcause

theorem keeps_notifySubscriber (hn : Noting ctx good causes halts inv)
    {run : NodeId → Option Value → Exec σ Unit} {value : Value} {s : Subscription}
    (hrun : (run s.root (some value)).Keeps halts inv) :
    (notifySubscriber run value s).Keeps halts inv :=
  keeps_bind (keeps_modify fun _ hr => hn.notify hr) fun _ => hrun

theorem keeps_refuseSubscriber (hl : Lasting ctx good causes halts inv)
    (hdeep : causes (.limitExceeded .subscriberDepth ctx.config.maxSubscriberDepth))
    (pool : String) (s : Subscription) : (refuseSubscriber ctx pool s).Keeps halts inv :=
  keeps_modify fun _ hr => hl.fail s.pipeline hr hdeep

/-- A run with its subscribers below it preserves an invariant that also survives refusals. -/
theorem keeps_runNested (hl : Lasting ctx good causes halts inv)
    (hdeep : causes (.limitExceeded .subscriberDepth ctx.config.maxSubscriberDepth))
    (levels : Nat) (root : NodeId) (seed : Option Value) :
    (runNested ctx levels root seed).Keeps halts inv := by
  induction levels generalizing root seed with
  | zero =>
    refine keeps_runPipeline hl RunContext.closed_univ (fun _ _ _ value => ?_) trivial seed
    exact keeps_forM _ fun s _ => keeps_unlessStopped (keeps_refuseSubscriber hl hdeep _ s)
  | succ levels ih =>
    refine keeps_runPipeline hl RunContext.closed_univ (fun _ _ _ value => ?_) trivial seed
    refine keeps_forM _ fun s _ => keeps_unlessStopped ?_
    exact keeps_notifySubscriber hl.toNoting (ih s.root (some value))

-- ============================================================================
-- The phases of a run
-- ============================================================================

theorem keeps_preloadImports (hn : Noting ctx good causes halts inv) :
    (preloadImports ctx).Keeps halts inv := by
  refine keeps_forM _ fun i _ => keeps_modify fun r hr => ?_
  have hloaded := hn.preload i.library hr
  split
  · next state hload =>
    rw [hload] at hloaded
    exact hloaded
  · next e state hload =>
    rw [hload] at hloaded
    exact hn.warn _ hloaded

theorem keeps_activate (hn : Noting ctx good causes halts inv) {root : NodeId}
    (hrun : (execute ctx root none).Keeps halts inv) : (activate ctx root).Keeps halts inv := by
  unfold activate
  split
  · exact keeps_pure _
  · next node _ =>
    refine keeps_bind (keeps_modify fun r hr => hn.activate node.pipeline _ hr) fun _ => ?_
    split
    · exact hrun
    · exact keeps_pure _

/-- Every phase of a run is runs of pipelines from the places where a run can start. -/
theorem keeps_runAll (hn : Noting ctx good causes halts inv) (initial : PoolStore)
    (hfinite : ∀ root ∈ ctx.plan.finiteRoots, (execute ctx root none).Keeps halts inv)
    (hlive : ∀ root ∈ ctx.plan.liveRoots, (execute ctx root none).Keeps halts inv)
    (hfired : ∀ s ∈ ctx.plan.subscriptions, ∀ value,
      (execute ctx s.root (some value)).Keeps halts inv) :
    (runAll ctx initial).Keeps halts inv := by
  refine keeps_bind (keeps_preloadImports hn) fun _ => ?_
  refine keeps_bind (keeps_forM _ fun root hroot => keeps_unlessStopped (hfinite root hroot)) ?_
  refine fun _ => keeps_bind (keeps_forM _ fun root hroot => ?_) fun _ => ?_
  · exact keeps_unlessStopped (keeps_activate hn (hlive root hroot))
  · split
    · refine keeps_forM _ fun s hs => keeps_unlessStopped ?_
      exact keeps_notifySubscriber hn (hfired s hs _)
    · exact keeps_pure ()

end Exec

/-- A run of a program is the outcome of its phases from the start state. -/
theorem Engine.run_eq (engine : Engine σ) (program : Program) (s : σ) :
    engine.run program s =
      match Exec.initialPools (engine.context program) with
      | .error halt => .error { halt, output := [] }
      | .ok initial =>
        match (Exec.runAll (engine.context program) initial).outcome
          (startState (engine.context program) initial s) with
        | (.ok _, r) =>
          .ok { report := (finish engine.host r).1, events := r.events.toList
                channel := r.channel, state := (finish engine.host r).2 }
        | (.error halt, r) => .error { halt, output := r.output.toList } := rfl

/-- A run whose phases preserve an invariant finishes in a state that has it, unless it is
halted. -/
theorem Engine.run_ends {engine : Engine σ} {program : Program} {s : σ}
    (hstart : ∀ initial, Exec.initialPools (engine.context program) = .ok initial →
      inv (startState (engine.context program) initial s))
    (hpools : ∀ h, Exec.initialPools (engine.context program) = .error h → halts h)
    (hrun : ∀ initial, (Exec.runAll (engine.context program) initial).Keeps halts inv) :
    match engine.run program s with
    | .ok finished => ∃ r, inv r ∧ finished =
      { report := (finish engine.host r).1, events := r.events.toList
        channel := r.channel, state := (finish engine.host r).2 }
    | .error halted => halts halted.halt := by
  rw [run_eq]
  match hinitial : Exec.initialPools (engine.context program) with
  | .error h => exact hpools h hinitial
  | .ok initial =>
    have h := hrun initial _ (hstart initial hinitial)
    simp only
    match hout : (Exec.runAll (engine.context program) initial).outcome
      (startState (engine.context program) initial s) with
    | (.error h', r) =>
      rw [hout] at h
      exact h
    | (.ok _, r) =>
      rw [hout] at h
      exact ⟨r, h, rfl⟩

/-- A run whose phases preserve an invariant reports on a state that has it, unless it is
halted. -/
theorem Engine.run_keeps {engine : Engine σ} {program : Program} {s : σ}
    (hstart : ∀ initial, Exec.initialPools (engine.context program) = .ok initial →
      inv (startState (engine.context program) initial s))
    (hpools : ∀ h, Exec.initialPools (engine.context program) = .error h → halts h)
    (hrun : ∀ initial, (Exec.runAll (engine.context program) initial).Keeps halts inv) :
    match engine.run program s with
    | .ok finished => ∃ r, inv r ∧ finished.report = (finish engine.host r).1
    | .error halted => halts halted.halt := by
  have hends := run_ends hstart hpools hrun
  match hrun : engine.run program s with
  | .error halted =>
    rw [hrun] at hends
    exact hends
  | .ok finished =>
    rw [hrun] at hends
    obtain ⟨r, hr, rfl⟩ := hends
    exact ⟨r, hr, rfl⟩

end Sluice
