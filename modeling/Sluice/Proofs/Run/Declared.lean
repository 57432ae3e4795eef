/-
  Sluice.Proofs.Run.Declared

  No run makes a pool. A run starts with the pools of its program's table, and the table of a
  parsed program has every pool that a node writes. So wherever a step of the run writes a pool,
  the pool is there: nothing is made, nothing is warned of, and after the step the run still has
  the pools of the table and no others.
-/

import Sluice.Proofs.Program.Pools
import Sluice.Proofs.Run.Cancellation

namespace Sluice

variable {σ : Type}

/-- A run starts with the pools that its program declares, and those that it subscribes to. -/
theorem Exec.contains_initialPools {ctx : RunContext σ} {initial : PoolStore}
    (h : initialPools ctx = .ok initial) (pool : String) :
    initial.contains pool = true ↔ (∃ s ∈ ctx.plan.subscriptions, s.pool = pool) ∨
      ∃ d ∈ ctx.program.pools.contents, d.name = pool := by
  unfold initialPools at h
  match hdeclared : ctx.program.pools.contents.foldlM
    (fun store (d : PoolDeclaration) => store.declare d.name (Literal.read ctx.json d.initial))
    (PoolStore.ofCapacity ctx.config.historyCapacity) with
  | .error e =>
    rw [hdeclared] at h
    cases h
  | .ok declared =>
    rw [hdeclared] at h
    have hempty : (PoolStore.ofCapacity ctx.config.historyCapacity).contains pool = false := rfl
    rw [PoolStore.contains_foldlM (fun s : Subscription => s.pool)
        (fun hmade => PoolStore.contains_subscribe hmade) h,
      PoolStore.contains_foldlM (fun d : PoolDeclaration => d.name)
        (fun hmade => PoolStore.contains_declare hmade) hdeclared, hempty]
    simp

-- ============================================================================
-- Steps
-- ============================================================================

/-- Every pool that a node writes is in the table of its program. -/
def Program.WritesListed (p : Program) : Prop :=
  ∀ id node pool, p.node? id = some node → node.kind = .poolWrite pool →
    p.pools.contains pool = true

/-- A run has the pools of a program, and no others. -/
def Run.HasPools (r : Run σ) (p : Program) : Prop :=
  ∀ pool, r.pools.contains pool = p.pools.contains pool

namespace Step

/-- A pool that is there is written, and neither made nor warned of. -/
theorem outcome_runNode_write (ctx : RunContext σ) {node : Node} {pool : String}
    (hkind : node.kind = .poolWrite pool) (packet : Packet) (seed : Option Value) {r : Run σ}
    (h : r.pools.contains pool = true) :
    (runNode ctx (fun _ _ => pure ()) node packet seed).outcome r =
      (.ok (.ok (.next packet)), r.written pool packet.value) := by
  have hwrite : (writePool (fun _ _ => pure ()) node pool packet.value).outcome r =
      (.ok (.ok ()), r.written pool packet.value) := by
    unfold writePool
    rw [outcome_get_bind, h]
    rfl
  unfold runNode
  rw [hkind]
  simp only
  rw [outcome_bind, hwrite]
  rfl

/-- No node makes a pool. -/
theorem ends_runNode_hasPools {ctx : RunContext σ} (hlisted : ctx.program.WritesListed)
    {id : NodeId} {node : Node} (hnode : ctx.program.node? id = some node) (packet : Packet)
    (seed : Option Value) {r : Run σ} (h : r.HasPools ctx.program) :
    Ends (fun _ => True) (fun _ => True) (·.HasPools ctx.program)
      ((runNode ctx (fun _ _ => pure ()) node packet seed).outcome r) := by
  by_cases hwrite : ∃ pool, node.kind = .poolWrite pool
  · obtain ⟨pool, hkind⟩ := hwrite
    have hcontains : r.pools.contains pool = true := by
      rw [h pool]
      exact hlisted id node pool hnode hkind
    rw [outcome_runNode_write ctx hkind packet seed hcontains]
    intro other
    rw [← h other]
    exact r.pools.contains_write pool other packet.value
  · have hkeeps : Keeps (· ≠ .cancelled) (fun _ => True)
        (fun r' => r.Still r' ∧ r'.pools = r.pools)
        (runNode ctx (fun _ _ => pure ()) node packet seed) :=
      keeps_runNode (showing_still ctx r) seed fun pool hkind => absurd ⟨pool, hkind⟩ hwrite
    have hends := hkeeps r ⟨⟨rfl, rfl, rfl, rfl⟩, rfl⟩
    match hout : (runNode ctx (fun _ _ => pure ()) node packet seed).outcome r with
    | (.error _, _) => trivial
    | (.ok (.ok _), r') =>
      rw [hout] at hends
      intro pool
      rw [hends.2]
      exact h pool
    | (.ok (.error _), r') =>
      rw [hout] at hends
      refine ⟨fun pool => ?_, trivial⟩
      rw [hends.1.2]
      exact h pool

end Step

namespace Machine

variable {ctx : RunContext σ} {m m' : Machine σ}

theorem notifyFrom_run (ctx : RunContext σ) (node : Node) (packet : Packet) (m : Machine σ) :
    (notifyFrom ctx node packet m).run = m.run := by
  unfold notifyFrom notify
  split
  · split
    · rfl
    · rfl
  · rfl

theorem notifyFrom_halted (ctx : RunContext σ) (node : Node) (packet : Packet) (m : Machine σ) :
    (notifyFrom ctx node packet m).halted = m.halted := by
  unfold notifyFrom notify
  split
  · split
    · rfl
    · rfl
  · rfl

theorem hasPools_stepWalk (hlisted : ctx.program.WritesListed) (pipeline : PipelineId)
    (position : Option NodeId) (packet : Packet) (seed : Option Value) (steps : Nat)
    (rest : List Frame) (depth : Nat) {r : Run σ} (h : r.HasPools ctx.program)
    (hhalted : (stepWalk ctx pipeline position packet seed steps rest depth r).halted = none) :
    (stepWalk ctx pipeline position packet seed steps rest depth r).run.HasPools ctx.program := by
  cases position with
  | none => exact h
  | some id =>
    unfold stepWalk at hhalted ⊢
    simp only at hhalted ⊢
    rw [Step.outcome_arrive] at hhalted ⊢
    match hnode : ctx.program.node? id with
    | none => exact h
    | some node =>
      rw [hnode] at hhalted
      match hcancelled : ctx.host.isCancelled r.state with
      | true => exact h
      | false =>
        rw [hcancelled] at hhalted
        simp only [Bool.false_eq_true, if_false] at hhalted ⊢
        split
        · exact h
        · next hbudget =>
          rw [if_neg hbudget] at hhalted
          have hstepped : r.stepped.HasPools ctx.program := h
          have hends := Step.ends_runNode_hasPools hlisted hnode packet seed hstepped
          match hrun : (Step.runNode ctx (fun _ _ => pure ()) node packet seed).outcome
            r.stepped with
          | (.error halt, r') =>
            rw [hrun] at hhalted
            cases hhalted
          | (.ok (.error failure), r') =>
            rw [hrun] at hends
            exact hends.1
          | (.ok (.ok flow), r') =>
            rw [hrun] at hends
            simp only [notifyFrom_run]
            exact hends

/-- A step that does not halt a run leaves it with its pools. -/
theorem hasPools_step (hlisted : ctx.program.WritesListed) (h : m.run.HasPools ctx.program)
    (hstep : m.step ctx = some m') (hhalted : m'.halted = none) : m'.run.HasPools ctx.program := by
  obtain ⟨frames, depth, r, halted⟩ := m
  cases halted with
  | some halt => cases hstep
  | none =>
    cases frames with
    | nil => cases hstep
    | cons frame rest =>
      cases frame with
      | walk pipeline position packet seed steps =>
        cases hstep
        exact hasPools_stepWalk hlisted pipeline position packet seed steps rest depth h hhalted
      | fan pool value subscriptions =>
        cases hstep
        unfold stepFan
        split
        · exact h
        · split
          · exact h
          · split
            · exact h
            · exact h

/-- A walk is about to run a node that writes a pool. -/
def AtWrite (ctx : RunContext σ) (m : Machine σ) (pool : String) : Prop :=
  ∃ pipeline id packet seed steps rest node,
    m.frames = .walk pipeline (some id) packet seed steps :: rest ∧
      ctx.program.node? id = some node ∧ node.kind = .poolWrite pool

/-- A step that writes a pool which is there neither halts the run nor warns of the pool. -/
theorem quiet_step {pool : String} (hwrite : m.AtWrite ctx pool)
    (h : m.run.pools.contains pool = true) (hstep : m.step ctx = some m') :
    m'.halted = none ∧ m'.run.warnings = m.run.warnings := by
  obtain ⟨pipeline, id, packet, seed, steps, rest, node, hframes, hnode, hkind⟩ := hwrite
  obtain ⟨frames, depth, r, halted⟩ := m
  obtain rfl : frames = _ := hframes
  cases halted with
  | some halt => cases hstep
  | none =>
    cases hstep
    have hstepped : r.stepped.pools.contains pool = true := h
    unfold stepWalk
    simp only
    rw [Step.outcome_arrive, hnode]
    match ctx.host.isCancelled r.state with
    | true => exact ⟨rfl, rfl⟩
    | false =>
      simp only [Bool.false_eq_true, if_false]
      split
      · exact ⟨rfl, rfl⟩
      · rw [Step.outcome_runNode_write ctx hkind packet seed hstepped]
        simp only [notifyFrom_run, notifyFrom_halted]
        exact ⟨trivial, rfl⟩

end Machine

namespace Course

variable {ctx : RunContext σ} {c c' : Course σ}

theorem hasPools_step (hlisted : ctx.program.WritesListed) (h : c.run.HasPools ctx.program)
    (hstep : c.step ctx = some c') (hhalted : c'.machine.halted = none) :
    c'.run.HasPools ctx.program := by
  unfold step at hstep
  match hmachine : c.machine.step ctx with
  | some machine =>
    rw [hmachine] at hstep
    cases hstep
    exact Machine.hasPools_step hlisted h hmachine hhalted
  | none =>
    rw [hmachine] at hstep
    simp only at hstep
    split at hstep
    · next task tasks _ _ =>
      split at hstep
      · cases hstep
        exact h
      · cases hstep
        obtain ⟨r', -, -, hpools, hbegin⟩ := task.begin_cases ctx c.run
        intro pool
        have hpool : r'.pools.contains pool = ctx.program.pools.contains pool := by
          rw [hpools]
          exact h pool
        rcases hbegin with hidle | ⟨seed, hstart⟩
        · rw [run, hidle]
          exact hpool
        · rw [run, hstart]
          exact hpool
    · cases hstep
    · cases hstep

/-- A whole course makes no pool. -/
theorem hasPools_steps (hlisted : ctx.program.WritesListed) (h : c.run.HasPools ctx.program)
    (hsteps : Steps ctx c c') (hhalted : c'.machine.halted = none) :
    c'.run.HasPools ctx.program := by
  induction hsteps with
  | refl => exact h
  | tail _ hstep ih => exact hasPools_step hlisted (ih (halted_of_step hstep)) hstep hhalted

/-- A write of a pool which is there is a step of the machine that warns of nothing. -/
theorem quiet_step {pool : String} (hwrite : c.machine.AtWrite ctx pool)
    (h : c.run.pools.contains pool = true) (hstep : c.step ctx = some c') :
    c'.machine.halted = none ∧ c'.run.warnings = c.run.warnings := by
  obtain ⟨m, hmachine⟩ : ∃ m, c.machine.step ctx = some m := by
    obtain ⟨_, _, _, _, _, _, _, hframes, -, -⟩ := hwrite
    unfold Machine.step
    rw [halted_of_step hstep, hframes]
    exact ⟨_, rfl⟩
  unfold step at hstep
  rw [hmachine] at hstep
  cases hstep
  exact Machine.quiet_step hwrite h hmachine

end Course

-- ============================================================================
-- Parsed programs
-- ============================================================================

namespace Program.PoolTable

variable {p : Program} {declared : String → Prop}

theorem writesListed (h : p.PoolTable declared) : p.WritesListed :=
  fun id node pool hnode hkind =>
    (h.listed pool).2 (.inr ⟨node.line, .inl ⟨id, node, hnode, hkind, rfl⟩⟩)

/-- A run of a program starts with the pools of its table. -/
theorem contains_initialPools (h : p.PoolTable declared) (engine : Engine σ) {initial : PoolStore}
    (hinitial : Exec.initialPools (engine.context p) = .ok initial) (pool : String) :
    initial.contains pool = p.pools.contains pool := by
  rw [Bool.eq_iff_iff, Exec.contains_initialPools hinitial, Record.contains_iff_mem]
  constructor
  · rintro (⟨s, hs, rfl⟩ | ⟨d, hd, rfl⟩)
    · exact Record.contains_iff_mem.1
        ((h.listed s.pool).2 (.inr ⟨s.line, .inr ⟨s, hs, rfl, rfl⟩⟩))
    · obtain ⟨e, he, rfl⟩ := List.mem_map.1 hd
      exact ⟨e, he, (h.named e he).symm⟩
  · rintro ⟨e, he, rfl⟩
    exact .inr ⟨e.2, List.mem_map_of_mem he, h.named e he⟩

end Program.PoolTable

/-- A run starts with the pools of its program. -/
theorem Course.hasPools_start {ctx : RunContext σ} {initial : PoolStore}
    (h : ∀ pool, initial.contains pool = ctx.program.pools.contains pool) (s : σ) :
    (start ctx initial s).run.HasPools ctx.program := by
  intro pool
  obtain ⟨-, hpools⟩ := Exec.still_preloadImports ctx (Engine.startState ctx initial s)
  show ((Exec.preloadImports ctx).after _).pools.contains pool = _
  rw [hpools]
  exact h pool

namespace Engine

/-- No step of a run makes a pool: at every moment the run has the pools of the program's table,
and where it writes a pool, the pool is there, and nothing is warned of. -/
structure MakesNoPools (engine : Engine σ) (p : Program) (initial : PoolStore) (s : σ) : Prop where
  /-- The steps are those of the run that the engine reports on. -/
  course : ∃ last, Course.Steps (engine.context p) (.start (engine.context p) initial s) last ∧
    last.step (engine.context p) = none ∧ engine.run p s = engine.conclude last.machine.outcome
  pools : ∀ c, Course.Steps (engine.context p) (.start (engine.context p) initial s) c →
    c.machine.halted = none → c.run.HasPools p
  writes : ∀ c, Course.Steps (engine.context p) (.start (engine.context p) initial s) c →
    c.machine.halted = none → ∀ pool, c.machine.AtWrite (engine.context p) pool →
    c.run.pools.contains pool = true ∧ ∀ c', c.step (engine.context p) = some c' →
      c'.machine.halted = none ∧ c'.run.warnings = c.run.warnings
  reported : ∀ finished, engine.run p s = .ok finished →
    ∀ pool, finished.report.pools.contains pool = p.pools.contains pool

/-- A program whose table is complete is run without making pools. -/
theorem makesNoPools {p : Program} {declared : String → Prop} (htable : p.PoolTable declared)
    (engine : Engine σ) {initial : PoolStore}
    (hinitial : Exec.initialPools (engine.context p) = .ok initial) (s : σ) :
    engine.MakesNoPools p initial s := by
  have hcourse := engine.run_eq_course s hinitial
  have hpools : ∀ c, Course.Steps (engine.context p) (.start (engine.context p) initial s) c →
      c.machine.halted = none → c.run.HasPools p := by
    intro c hsteps hhalted
    have hstart : (Course.start (engine.context p) initial s).run.HasPools p :=
      Course.hasPools_start (htable.contains_initialPools engine hinitial) s
    exact Course.hasPools_steps htable.writesListed hstart hsteps hhalted
  constructor
  case course => exact hcourse
  case pools => exact hpools
  case writes =>
    intro c hsteps hhalted pool hwrite
    have hcontains : c.run.pools.contains pool = true := by
      obtain ⟨-, id, -, -, -, -, node, -, hnode, hkind⟩ := hwrite
      rw [hpools c hsteps hhalted]
      exact htable.writesListed id node pool hnode hkind
    exact ⟨hcontains, fun c' hstep => Course.quiet_step hwrite hcontains hstep⟩
  case reported =>
    intro finished hfinished pool
    obtain ⟨last, hlast, hend, hrun⟩ := hcourse
    rw [hrun, Machine.outcome] at hfinished
    cases hhalted : last.machine.halted with
    | none =>
      rw [hhalted] at hfinished
      cases hfinished
      exact hpools last hlast hhalted pool
    | some halt =>
      rw [hhalted] at hfinished
      cases hfinished

/-- Every source text builds a complete table of pools, so no run has to make one. -/
theorem pool_table_complete (source : String) :
    (Program.parse source).PoolTable (Source.Declares source) ∧
      ∀ {σ : Type} (engine : Engine σ) (initial : PoolStore) (s : σ),
        Exec.initialPools (engine.context (.parse source)) = .ok initial →
        engine.MakesNoPools (.parse source) initial s :=
  ⟨Program.parse_poolTable source, fun engine _ s hinitial =>
    engine.makesNoPools (Program.parse_poolTable source) hinitial s⟩

/-- A pool that is referred to twice and never declared, and one that is declared at last. -/
def lateSource : String :=
  "p -> to_pool(q)\n~ 1 | to_pool(p)\nlet q = <|> 0"

/-- The engine of a session without operators of its own. -/
def plainEngine : Engine (Session Unit) :=
  Session.engine {} []

/-- The first pool is implied, on the line of the first reference to it, and its write leads to its
subscription; a run has to make neither of the two. -/
theorem late_pools_listed :
    ((Program.parse lateSource).pools.map fun e => (e.1, e.2.line, e.2.implied)) =
        [("p", 1, true), ("q", 3, false)] ∧
      (Program.parse lateSource).warnings = [⟨1, .undeclaredPool "p"⟩] ∧
      (Program.parse lateSource).poolReads = [(3, 0)] ∧ ¬ Source.Declares lateSource "p" ∧
      ∃ initial, Exec.initialPools (plainEngine.context (.parse lateSource)) = .ok initial ∧
        plainEngine.MakesNoPools (.parse lateSource) initial (.ofConfig {} ()) := by
  obtain ⟨hpools, hwarnings, hreads, himplied, hok⟩ :
      ((Program.parse lateSource).pools.map fun e => (e.1, e.2.line, e.2.implied)) =
          [("p", 1, true), ("q", 3, false)] ∧
        (Program.parse lateSource).warnings = [⟨1, .undeclaredPool "p"⟩] ∧
        (Program.parse lateSource).poolReads = [(3, 0)] ∧
        ((Program.parse lateSource).pools.get? "p").any (·.implied) = true ∧
        (Exec.initialPools (plainEngine.context (.parse lateSource))).toBool = true := by
    decide +kernel
  obtain ⟨htable, hruns⟩ := pool_table_complete lateSource
  refine ⟨hpools, hwarnings, hreads, ?_, ?_⟩
  · obtain ⟨d, hd, himplied⟩ := (Option.any_eq_true _ _).1 himplied
    exact ((htable.implied "p").1 ⟨d, hd, himplied⟩).2
  · cases hinitial : Exec.initialPools (plainEngine.context (.parse lateSource)) with
    | error _ =>
      rw [hinitial] at hok
      cases hok
    | ok initial => exact ⟨initial, rfl, hruns _ initial _ hinitial⟩

end Engine

end Sluice
