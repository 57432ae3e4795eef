/-
  Sluice.Proofs.Run.Machine

  The interpreter as a machine that only ever takes one step. It holds a stack of frames: a
  pipeline that is being walked, with the nodes it has run, or a write whose subscribers are
  being run. A counter of levels goes up where a write finds subscribers, and down where they are
  done; nothing but the counter keeps subscribers from running below each other without end, and
  nothing but the nodes it has run ends the walk of a pipeline that goes in circles.

  The machine does what a run does: started on a pipeline it comes to its end, with the counter
  where it was and in the state in which the run leaves off. This is proved for any frames
  below, by induction on the nodes that a walk may still run and on the levels that are left.
-/

import Mathlib.Logic.Relation
import Sluice.Proofs.Run.Keeping

namespace Sluice

variable {σ : Type}

/-- An activity that was begun and is not at its end. -/
inductive Frame where
  /-- The walk of a pipeline: where it goes on, if it does, its packet, the value that its first
  node is given, and the number of nodes it has run. -/
  | walk (pipeline : PipelineId) (position : Option NodeId) (packet : Packet)
    (seed : Option Value) (steps : Nat)
  /-- A write, with the subscriptions that were not told yet. -/
  | fan (pool : String) (value : Value) (subscriptions : List Subscription)

namespace Frame

/-- Whether a frame is a write. -/
def isFan : Frame → Bool
  | walk .. => false
  | fan .. => true

/-- The number of nodes that the walk of a frame has run. -/
def steps : Frame → Nat
  | walk _ _ _ _ steps => steps
  | fan .. => 0

end Frame

/-- A run in the middle, the innermost frame first. -/
structure Machine (σ : Type) where
  frames : List Frame
  /-- The counter of levels of subscribers. -/
  depth : Nat
  run : Run σ
  halted : Option Halt := none

namespace Machine

-- ============================================================================
-- One step
-- ============================================================================

/-- Begin the run of a pipeline. -/
def enter (ctx : RunContext σ) (root : NodeId) (seed : Option Value) (m : Machine σ) : Machine σ :=
  { m with
    frames := .walk (ctx.pipelineOf root) (some root) {} seed 0 :: m.frames
    run := m.run.started (ctx.pipelineOf root) root }

/-- Begin to tell the subscribers of a pool, one level further down, if there are any. -/
def notify (ctx : RunContext σ) (pool : String) (value : Value) (m : Machine σ) : Machine σ :=
  match ctx.plan.subscribersOf pool with
  | [] => m
  | subscriptions =>
    { m with frames := .fan pool value subscriptions :: m.frames, depth := m.depth + 1 }

/-- The subscribers of a node that writes begin to be told once it has run. -/
def notifyFrom (ctx : RunContext σ) (node : Node) (packet : Packet) (m : Machine σ) : Machine σ :=
  match node.kind with
  | .poolWrite pool => m.notify ctx pool packet.value
  | _ => m

/-- A walk arrives at its position, runs the node there, and has a new position. -/
def stepWalk (ctx : RunContext σ) (pipeline : PipelineId) (position : Option NodeId)
    (packet : Packet) (seed : Option Value) (steps : Nat) (rest : List Frame) (depth : Nat)
    (r : Run σ) : Machine σ :=
  match position with
  | none => { frames := rest, depth, run := r.emit (.completed pipeline packet.value) }
  | some id =>
    let frames := .walk pipeline position packet seed steps :: rest
    match (Step.arrive ctx id).outcome r with
    | (.error halt, r) => { frames, depth, run := r, halted := some halt }
    | (.ok (.error failure), r) => { frames := rest, depth, run := r.fail pipeline failure }
    | (.ok (.ok none), r) =>
      { frames := rest, depth, run := r.emit (.completed pipeline packet.value) }
    | (.ok (.ok (some node)), r) =>
      if ctx.config.maxSteps < steps + 1 then
        let cause := .limitExceeded .pipelineSteps ctx.config.maxSteps
        { frames := rest, depth, run := r.fail pipeline ⟨cause, .atNode node node.name⟩ }
      else
        -- Subscribers are no part of this step: a write leaves them to the steps that follow.
        match (Step.runNode ctx (fun _ _ => pure ()) node packet seed).outcome r with
        | (.error halt, r) => { frames, depth, run := r, halted := some halt }
        | (.ok (.error failure), r) => { frames := rest, depth, run := r.fail pipeline failure }
        | (.ok (.ok flow), r) =>
          let onward := Visit.onward? ctx.plan ⟨id, node, packet, some flow⟩
          let walk := .walk pipeline (onward.map (·.1)) flow.packet none (steps + 1)
          notifyFrom ctx node packet { frames := walk :: rest, depth, run := r }

/-- The next subscriber of a write is run, or refused if it is too deep; a run that was stopped
tells no more of them. -/
def stepFan (ctx : RunContext σ) (pool : String) (value : Value)
    (subscriptions : List Subscription) (rest : List Frame) (depth : Nat) (r : Run σ) :
    Machine σ :=
  match subscriptions with
  | [] => { frames := rest, depth := depth - 1, run := r }
  | s :: others =>
    if r.stopped then { frames := .fan pool value [] :: rest, depth, run := r }
    else if ctx.config.maxSubscriberDepth < depth then
      let refused := ((Exec.refuseSubscriber ctx pool s).outcome r).2
      { frames := .fan pool value others :: rest, depth, run := refused }
    else
      enter ctx s.root (some value)
        { frames := .fan pool value others :: rest, depth, run := r.notified }

/-- One step, unless everything is at its end. -/
def step (ctx : RunContext σ) (m : Machine σ) : Option (Machine σ) :=
  match m.halted, m.frames with
  | none, .walk pipeline position packet seed steps :: rest =>
    some (stepWalk ctx pipeline position packet seed steps rest m.depth m.run)
  | none, .fan pool value subscriptions :: rest =>
    some (stepFan ctx pool value subscriptions rest m.depth m.run)
  | none, [] | some _, _ => none

/-- Any number of steps. -/
def Steps (ctx : RunContext σ) : Machine σ → Machine σ → Prop :=
  Relation.ReflTransGen fun m m' => m.step ctx = some m'

/-- The machine comes back to some frames and a depth, with an outcome; after a halt there is
nothing to come back to. -/
def Returns (ctx : RunContext σ) (m : Machine σ) (frames : List Frame) (depth : Nat) :
    Except Halt Unit × Run σ → Prop
  | (.ok _, r) => Steps ctx m { frames, depth, run := r }
  | (.error halt, r) => ∃ m', Steps ctx m m' ∧ m'.halted = some halt ∧ m'.run = r

/-- What the machine has come to. -/
def outcome (m : Machine σ) : Except Halt Unit × Run σ :=
  match m.halted with
  | none => (.ok (), m.run)
  | some halt => (.error halt, m.run)

-- ============================================================================
-- Returning
-- ============================================================================

variable {ctx : RunContext σ}

/-- Where nothing is left to do, the machine has returned. -/
theorem returns_refl (frames : List Frame) (depth : Nat) (r : Run σ) :
    Returns ctx { frames, depth, run := r } frames depth (.ok (), r) :=
  .refl

/-- What the machine returns after some steps, it returns. -/
theorem Returns.of_steps {m m' : Machine σ} {frames : List Frame} {depth : Nat}
    {out : Except Halt Unit × Run σ} (hsteps : Steps ctx m m')
    (h : Returns ctx m' frames depth out) : Returns ctx m frames depth out := by
  match out with
  | (.ok _, r) => exact hsteps.trans h
  | (.error halt, r) =>
    obtain ⟨m'', hrest, hhalted⟩ := h
    exact ⟨m'', hsteps.trans hrest, hhalted⟩

theorem Returns.step {m m' : Machine σ} {frames : List Frame} {depth : Nat}
    {out : Except Halt Unit × Run σ} (hstep : m.step ctx = some m')
    (h : Returns ctx m' frames depth out) : Returns ctx m frames depth out :=
  .of_steps (.single hstep) h

/-- Where there are no frames to return to, the machine takes no more step. -/
theorem Returns.ends {m : Machine σ} {depth : Nat} {out : Except Halt Unit × Run σ}
    (h : Returns ctx m [] depth out) :
    ∃ last, Steps ctx m last ∧ last.step ctx = none ∧ last.outcome = out := by
  match out with
  | (.ok _, r) => exact ⟨_, h, rfl, rfl⟩
  | (.error halt, r) =>
    obtain ⟨last, hsteps, hhalted, rfl⟩ := h
    refine ⟨last, hsteps, ?_, ?_⟩
    · unfold Machine.step
      rw [hhalted]
    · unfold outcome
      rw [hhalted]

end Machine

-- ============================================================================
-- Writes and their subscribers
-- ============================================================================

namespace Step

/-- What a node has told once it ran. -/
def told (notify : String → Value → Exec σ Unit) (node : Node) (packet : Packet) : Exec σ Unit :=
  match node.kind with
  | .poolWrite pool => notify pool packet.value
  | _ => pure ()

/-- A write changes its pool first, and notifies then. -/
theorem outcome_writePool (notify : String → Value → Exec σ Unit) (node : Node) (pool : String)
    (value : Value) (r : Run σ) :
    (writePool notify node pool value).outcome r =
      (writePool (fun _ _ => pure ()) node pool value >>= fun _ =>
        ExceptT.lift (notify pool value)).outcome r := by
  rw [outcome_bind]
  unfold writePool
  rw [outcome_get_bind, outcome_get_bind]
  split
  · match r.pools.ensure pool with
    | .error h => rfl
    | .ok pools => rfl
  · rfl

/-- A node runs on its own, and has its subscribers told then. -/
theorem outcome_runNode (ctx : RunContext σ) (notify : String → Value → Exec σ Unit) (node : Node)
    (packet : Packet) (seed : Option Value) (r : Run σ) :
    (runNode ctx notify node packet seed).outcome r =
      match (runNode ctx (fun _ _ => pure ()) node packet seed).outcome r with
      | (.error halt, r) => (.error halt, r)
      | (.ok (.error failure), r) => (.ok (.error failure), r)
      | (.ok (.ok flow), r) =>
        match (told notify node packet).outcome r with
        | (.ok _, r) => (.ok (.ok flow), r)
        | (.error halt, r) => (.error halt, r) := by
  have hother : ∀ m : Step σ Flow, m.outcome r =
      match m.outcome r with
      | (.error halt, r) => (.error halt, r)
      | (.ok (.error failure), r) => (.ok (.error failure), r)
      | (.ok (.ok flow), r) => (.ok (.ok flow), r) := by
    intro m
    match m.outcome r with
    | (.error halt, r') => rfl
    | (.ok (.error failure), r') => rfl
    | (.ok (.ok flow), r') => rfl
  unfold runNode told
  match node.kind with
  | .finiteSource _ | .liveSource _ | .poolAccess _ | .operator | .lens _ _ | .branch _ =>
    exact hother _
  | .poolWrite pool =>
    simp only
    rw [outcome_bind, outcome_writePool, outcome_bind, outcome_bind]
    match (writePool (fun _ _ => pure ()) node pool packet.value).outcome r with
    | (.error halt, r') => rfl
    | (.ok (.error failure), r') => rfl
    | (.ok (.ok _), r') =>
      have hnext : (pure (.next packet) : Step σ Flow).outcome r' =
          (.ok (.ok (.next packet)), r') := rfl
      simp only
      rw [outcome_lift, hnext]
      simp only
      match (notify pool packet.value).outcome r' with
      | (.ok _, r'') => rfl
      | (.error halt, r'') => rfl

end Step

-- ============================================================================
-- Walks
-- ============================================================================

/-- The note of how a walk ended. -/
def Exec.noted (pipeline : PipelineId) :
    Except Halt (Except Failure Value) × Run σ → Except Halt Unit × Run σ
  | (.ok (.ok value), r) => (.ok (), r.emit (.completed pipeline value))
  | (.ok (.error failure), r) => (.ok (), r.fail pipeline failure)
  | (.error halt, r) => (.error halt, r)

/-- A walk goes on with the packet that a node hands on. -/
theorem Visit.packet_of_onward? {plan : Plan} {id : Nat} {node : Node} {packet : Packet}
    {flow : Flow} {next : Nat} {packet' : Packet}
    (h : Visit.onward? plan ⟨id, node, packet, some flow⟩ = some (next, packet')) :
    packet' = flow.packet := by
  unfold Visit.onward? at h
  cases flow with
  | stop out => cases h
  | jump target out =>
    cases h
    rfl
  | next out =>
    simp only at h
    split at h
    · cases h
    · obtain ⟨target, -, heq⟩ := Option.map_eq_some_iff.1 h
      cases heq
      rfl

namespace Machine

variable {ctx : RunContext σ} {depth : Nat}

/-- What notifying does, the machine does from the frames of a write on. -/
def Tells (ctx : RunContext σ) (depth : Nat) (notify : String → Value → Exec σ Unit) : Prop :=
  ∀ pool value frames r, Returns ctx (Machine.notify ctx pool value { frames, depth, run := r })
    frames depth ((notify pool value).outcome r)

theorem Tells.notifyFrom {notify : String → Value → Exec σ Unit} (h : Tells ctx depth notify)
    (node : Node) (packet : Packet) (frames : List Frame) (r : Run σ) :
    Returns ctx (Machine.notifyFrom ctx node packet { frames, depth, run := r }) frames depth
      ((Step.told notify node packet).outcome r) := by
  unfold Machine.notifyFrom Step.told
  match node.kind with
  | .poolWrite pool => exact h pool packet.value frames r
  | .finiteSource _ | .liveSource _ | .poolAccess _ | .operator | .lens _ _ | .branch _ =>
    exact returns_refl frames depth r

/-- A walk that has run some nodes and may run the rest of its budget comes to its end. -/
theorem returns_walk {notify : String → Value → Exec σ Unit} (h : Tells ctx depth notify)
    (pipeline : PipelineId) (rest : List Frame) (budget : Nat) {steps : Nat}
    (hsteps : steps + budget = ctx.config.maxSteps) (id : NodeId) (packet : Packet)
    (seed : Option Value) (r : Run σ) :
    Returns ctx
      { frames := .walk pipeline (some id) packet seed steps :: rest, depth, run := r } rest depth
      (Exec.noted pipeline ((Step.walk ctx notify budget id packet seed).outcome r)) := by
  rw [← Step.trace_outcome]
  induction budget generalizing steps id packet seed r with
  | zero =>
    refine Returns.step rfl ?_
    unfold stepWalk Step.trace
    simp only
    rcases (Step.arrive ctx id).outcome r with ⟨halt | failure | _ | node, r₁⟩
    · exact ⟨_, .refl, rfl, rfl⟩
    · exact .refl
    · exact .refl
    · simp only
      rw [if_pos (by omega)]
      exact .refl
  | succ budget ih =>
    refine Returns.step rfl ?_
    unfold stepWalk Step.trace
    simp only
    rcases (Step.arrive ctx id).outcome r with ⟨halt | failure | _ | node, r₁⟩
    · exact ⟨_, .refl, rfl, rfl⟩
    · exact .refl
    · exact .refl
    · simp only
      rw [if_neg (by omega), Step.outcome_runNode ctx notify]
      rcases (Step.runNode ctx (fun _ _ => pure ()) node packet seed).outcome r₁ with
        ⟨halt | failure | flow, r₂⟩
      · exact ⟨_, .refl, rfl, rfl⟩
      · exact .refl
      · -- The subscribers are told, and the walk goes on from its new position.
        have htold := h.notifyFrom node packet (.walk pipeline
          ((Visit.onward? ctx.plan ⟨id, node, packet, some flow⟩).map (·.1)) flow.packet none
          (steps + 1) :: rest) r₂
        simp only
        rcases hout : (Step.told notify node packet).outcome r₂ with ⟨halt | _, r₃⟩
        · rw [hout] at htold
          exact htold
        · rw [hout] at htold
          refine Returns.of_steps htold ?_
          simp only
          rcases honward : Visit.onward? ctx.plan ⟨id, node, packet, some flow⟩ with
            _ | ⟨next, packet'⟩
          · exact Returns.step rfl .refl
          · obtain rfl : packet' = flow.packet := Visit.packet_of_onward? honward
            exact ih (by omega) next flow.packet none r₃

/-- The run of a pipeline comes to its end. -/
theorem returns_runPipeline {notify : String → Value → Exec σ Unit} (h : Tells ctx depth notify)
    (root : NodeId) (seed : Option Value) (rest : List Frame) (r : Run σ) :
    Returns ctx (enter ctx root seed { frames := rest, depth, run := r }) rest depth
      ((Exec.runPipeline ctx notify root seed).outcome r) := by
  have hwalk := returns_walk h (ctx.pipelineOf root) rest ctx.config.maxSteps (Nat.zero_add _) root
    {} seed (r.started (ctx.pipelineOf root) root)
  rw [Exec.outcome_runPipeline]
  unfold Exec.noted at hwalk
  exact hwalk

-- ============================================================================
-- Levels
-- ============================================================================

/-- A run that was stopped tells nobody. -/
theorem outcome_forM_stopped {act : Subscription → Exec σ Unit} {r : Run σ} (h : r.stopped = true)
    (subscriptions : List Subscription) :
    (subscriptions.forM fun s => Exec.unlessStopped (act s)).outcome r = (.ok (), r) := by
  induction subscriptions with
  | nil => rfl
  | cons s others ih =>
    show Exec.outcome (Exec.unlessStopped (act s) >>= fun _ => _) r = _
    rw [Exec.outcome_bind, Exec.outcome_unlessStopped, if_pos h]
    exact ih

/-- Subscribers are told one after another, and the counter goes down at the end. -/
theorem returns_fan {pool : String} {value : Value} {rest : List Frame}
    {act : Subscription → Exec σ Unit}
    (hact : ∀ s others r, r.stopped = false →
      Returns ctx { frames := .fan pool value (s :: others) :: rest, depth := depth + 1, run := r }
        (.fan pool value others :: rest) (depth + 1) ((act s).outcome r))
    (subscriptions : List Subscription) (r : Run σ) :
    Returns ctx { frames := .fan pool value subscriptions :: rest, depth := depth + 1, run := r }
      rest depth ((subscriptions.forM fun s => Exec.unlessStopped (act s)).outcome r) := by
  induction subscriptions generalizing r with
  | nil => exact Returns.step rfl .refl
  | cons s others ih =>
    match hstopped : r.stopped with
    | true =>
      rw [outcome_forM_stopped hstopped]
      refine Returns.step rfl ?_
      unfold stepFan
      simp only
      rw [if_pos hstopped]
      exact Returns.step rfl .refl
    | false =>
      have hfirst := hact s others r hstopped
      show Returns _ _ _ _ (Exec.outcome (Exec.unlessStopped (act s) >>= fun _ => _) r)
      rw [Exec.outcome_bind, Exec.outcome_unlessStopped, if_neg (by rw [hstopped]; decide)]
      match hout : (act s).outcome r with
      | (.ok _, r') =>
        rw [hout] at hfirst
        exact Returns.of_steps hfirst (ih r')
      | (.error halt, r') =>
        rw [hout] at hfirst
        exact hfirst

/-- Telling the subscribers of a pool one by one is telling them. -/
theorem tells_of_each {act : String → Value → Subscription → Exec σ Unit}
    (hact : ∀ pool value rest s others r, r.stopped = false →
      Returns ctx { frames := .fan pool value (s :: others) :: rest, depth := depth + 1, run := r }
        (.fan pool value others :: rest) (depth + 1) ((act pool value s).outcome r)) :
    Tells ctx depth fun pool value => (ctx.plan.subscribersOf pool).forM fun s =>
      Exec.unlessStopped (act pool value s) := by
  intro pool value frames r
  unfold Machine.notify
  simp only
  match ctx.plan.subscribersOf pool with
  | [] => exact returns_refl frames depth r
  | s :: others => exact returns_fan (hact pool value frames) (s :: others) r

/-- Below the deepest level subscribers are refused. -/
theorem tells_refusals (hdepth : ctx.config.maxSubscriberDepth < depth + 1) :
    Tells ctx depth fun pool _ => (ctx.plan.subscribersOf pool).forM fun s =>
      Exec.unlessStopped (Exec.refuseSubscriber ctx pool s) := by
  refine tells_of_each fun pool value rest s others r hstopped => Returns.step rfl ?_
  unfold stepFan
  simp only
  rw [if_neg (by rw [hstopped]; decide), if_pos hdepth]
  exact .refl

/-- Further up they are run, one level further down. -/
theorem tells_runs (hdepth : depth + 1 ≤ ctx.config.maxSubscriberDepth)
    {run : NodeId → Option Value → Exec σ Unit}
    (hrun : ∀ root seed rest r, Returns ctx
      (enter ctx root seed { frames := rest, depth := depth + 1, run := r }) rest (depth + 1)
      ((run root seed).outcome r)) :
    Tells ctx depth fun pool value => (ctx.plan.subscribersOf pool).forM fun s =>
      Exec.unlessStopped (Exec.notifySubscriber run value s) := by
  refine tells_of_each fun pool value rest s others r hstopped => Returns.step rfl ?_
  unfold stepFan
  simp only
  rw [if_neg (by rw [hstopped]; decide), if_neg (by omega)]
  exact hrun s.root (some value) (.fan pool value others :: rest) r.notified

/-- A run with some levels of subscribers below it comes to its end, with the counter where it
was. -/
theorem returns_runNested (levels : Nat) (hlevels : depth + levels = ctx.config.maxSubscriberDepth)
    (root : NodeId) (seed : Option Value) (rest : List Frame) (r : Run σ) :
    Returns ctx (enter ctx root seed { frames := rest, depth, run := r }) rest depth
      ((Exec.runNested ctx levels root seed).outcome r) := by
  induction levels generalizing depth root seed rest r with
  | zero => exact returns_runPipeline (tells_refusals (by omega)) root seed rest r
  | succ levels ih =>
    refine returns_runPipeline (tells_runs (by omega) fun root seed rest r => ?_) root seed rest r
    exact ih (by omega) root seed rest r

-- ============================================================================
-- Bounds
-- ============================================================================

/-- The frames of a machine: whether the innermost is a walk, and how many writes are under way.
Below a write stands the walk that wrote, and below a walk a write or nothing. -/
inductive Nested (ctx : RunContext σ) : Bool → Nat → List Frame → Prop where
  | top {pipeline : PipelineId} {position : Option NodeId} {packet : Packet}
    {seed : Option Value} {steps : Nat} : steps ≤ ctx.config.maxSteps →
    Nested ctx true 0 [.walk pipeline position packet seed steps]
  | fan {n : Nat} {frames : List Frame} {pool : String} {value : Value}
    {subscriptions : List Subscription} : Nested ctx true n frames →
    Nested ctx false (n + 1) (.fan pool value subscriptions :: frames)
  | walk {n : Nat} {frames : List Frame} {pipeline : PipelineId} {position : Option NodeId}
    {packet : Packet} {seed : Option Value} {steps : Nat} : Nested ctx false n frames →
    n ≤ ctx.config.maxSubscriberDepth → steps ≤ ctx.config.maxSteps →
    Nested ctx true n (.walk pipeline position packet seed steps :: frames)

/-- How many frames of each kind there are, and how many nodes they have run. -/
theorem Nested.counts {b : Bool} {n : Nat} {frames : List Frame} (h : Nested ctx b n frames) :
    frames.countP Frame.isFan = n ∧
    frames.countP (fun frame => !frame.isFan) = n + b.toNat ∧
    n + b.toNat ≤ ctx.config.maxSubscriberDepth + 1 ∧
    ∀ frame ∈ frames, frame.steps ≤ ctx.config.maxSteps := by
  induction h with
  | top hsteps => exact ⟨rfl, rfl, Nat.le_add_left _ _, List.forall_mem_singleton.2 hsteps⟩
  | fan _ ih =>
    obtain ⟨hfans, hwalks, hdepth, hsteps⟩ := ih
    refine ⟨?_, ?_, hdepth, List.forall_mem_cons.2 ⟨Nat.zero_le _, hsteps⟩⟩
    · rw [List.countP_cons_of_pos rfl, hfans]
    · rw [List.countP_cons_of_neg (by simp [Frame.isFan]), hwalks]
      rfl
  | walk _ hdepth hsteps ih =>
    obtain ⟨hfans, hwalks, -, hall⟩ := ih
    refine ⟨?_, ?_, Nat.succ_le_succ hdepth, List.forall_mem_cons.2 ⟨hsteps, hall⟩⟩
    · rw [List.countP_cons_of_neg (by simp [Frame.isFan]), hfans]
    · rw [List.countP_cons_of_pos rfl, hwalks]
      rfl

/-- The counter of a machine is the number of writes that are under way. -/
def Sound (ctx : RunContext σ) (m : Machine σ) : Prop :=
  (m.frames = [] ∧ m.depth = 0) ∨ ∃ b, Nested ctx b m.depth m.frames

section

variable {pipeline : PipelineId} {position : Option NodeId} {packet : Packet}
  {seed : Option Value} {steps n : Nat} {rest : List Frame}

theorem Nested.eq_true {b : Bool}
    (h : Nested ctx b n (.walk pipeline position packet seed steps :: rest)) : b = true := by
  cases h <;> rfl

theorem Nested.eq_false {b : Bool} {pool : String} {value : Value}
    {subscriptions : List Subscription}
    (h : Nested ctx b n (.fan pool value subscriptions :: rest)) : b = false := by
  cases h
  rfl

/-- What is below a walk. -/
theorem Nested.below_walk
    (h : Nested ctx true n (.walk pipeline position packet seed steps :: rest)) (r : Run σ) :
    Sound ctx { frames := rest, depth := n, run := r } := by
  cases h with
  | top _ => exact .inl ⟨rfl, rfl⟩
  | walk hrest _ _ => exact .inr ⟨false, hrest⟩

/-- A walk that has got somewhere else. -/
theorem Nested.moved
    (h : Nested ctx true n (.walk pipeline position packet seed steps :: rest))
    {position' : Option NodeId} {packet' : Packet} {seed' : Option Value} {steps' : Nat}
    (hsteps : steps' ≤ ctx.config.maxSteps) :
    Nested ctx true n (.walk pipeline position' packet' seed' steps' :: rest) := by
  cases h with
  | top _ => exact .top hsteps
  | walk hrest hdepth _ => exact .walk hrest hdepth hsteps

theorem sound_notifyFrom {m : Machine σ} (h : Nested ctx true m.depth m.frames) (node : Node)
    (packet : Packet) : Sound ctx (notifyFrom ctx node packet m) := by
  unfold notifyFrom notify
  split
  · split
    · exact .inr ⟨true, h⟩
    · exact .inr ⟨false, .fan h⟩
  · exact .inr ⟨true, h⟩

theorem sound_stepWalk
    (h : Nested ctx true n (.walk pipeline position packet seed steps :: rest)) (r : Run σ) :
    Sound ctx (stepWalk ctx pipeline position packet seed steps rest n r) := by
  unfold stepWalk
  split
  · exact h.below_walk _
  · simp only
    split
    · exact .inr ⟨true, h⟩
    · exact h.below_walk _
    · exact h.below_walk _
    · split
      · exact h.below_walk _
      · next hbudget =>
        split
        · exact .inr ⟨true, h⟩
        · exact h.below_walk _
        · exact sound_notifyFrom (h.moved (Nat.not_lt.1 hbudget)) _ _

theorem sound_stepFan {pool : String} {value : Value} {subscriptions : List Subscription}
    (h : Nested ctx false n (.fan pool value subscriptions :: rest)) (r : Run σ) :
    Sound ctx (stepFan ctx pool value subscriptions rest n r) := by
  cases h with
  | fan hrest =>
    unfold stepFan
    split
    · exact .inr ⟨true, hrest⟩
    · split
      · exact .inr ⟨false, .fan hrest⟩
      · split
        · exact .inr ⟨false, .fan hrest⟩
        · next hdepth =>
          exact .inr ⟨true, .walk (.fan hrest) (Nat.not_lt.1 hdepth) (Nat.zero_le _)⟩

end

/-- A step of the machine keeps the counter. -/
theorem Sound.step {m m' : Machine σ} (h : Sound ctx m) (hstep : m.step ctx = some m') :
    Sound ctx m' := by
  unfold Machine.step at hstep
  split at hstep
  · next hhalted hframes =>
    cases hstep
    rcases h with ⟨hnil, -⟩ | ⟨b, hnested⟩
    · rw [hframes] at hnil
      cases hnil
    · rw [hframes] at hnested
      obtain rfl := hnested.eq_true
      exact sound_stepWalk hnested _
  · next hhalted hframes =>
    cases hstep
    rcases h with ⟨hnil, -⟩ | ⟨b, hnested⟩
    · rw [hframes] at hnil
      cases hnil
    · rw [hframes] at hnested
      obtain rfl := hnested.eq_false
      exact sound_stepFan hnested _
  · cases hstep
  · cases hstep

/-- So does any number of steps. -/
theorem Sound.steps {m m' : Machine σ} (h : Sound ctx m) (hsteps : Steps ctx m m') :
    Sound ctx m' := by
  induction hsteps with
  | refl => exact h
  | tail _ hstep ih => exact ih.step hstep

/-- A machine that was started on a pipeline. -/
def start (ctx : RunContext σ) (root : NodeId) (seed : Option Value) (r : Run σ) : Machine σ :=
  enter ctx root seed { frames := [], depth := 0, run := r }

theorem sound_start (root : NodeId) (seed : Option Value) (r : Run σ) :
    Sound ctx (start ctx root seed r) :=
  .inr ⟨true, .top (Nat.zero_le _)⟩

end Machine

end Sluice
