/-
  Sluice.Proofs.Run.Termination

  Every run of every program comes to an end, whatever its graph looks like: in circles, with
  connections that lead nowhere, with subscriptions that feed each other. Where operators return,
  the one way to halt a run is a history that has no room.

  That it ends is a matter of the machine, which has no bound built in: it takes steps until
  there is nothing left to do. Its two counters are all there is to stop it.
-/

import Sluice.Proofs.Run.Events
import Sluice.Proofs.Run.Machine

namespace Sluice

variable {σ : Type}

-- ============================================================================
-- Halts
-- ============================================================================

/-- A run with its host in a set of states, and pools of a capacity. -/
structure Run.Within (P : σ → Prop) (capacity : Nat) (r : Run σ) : Prop where
  state : P r.state
  pools : r.pools.capacity = capacity

/-- There is no room for histories of a capacity. -/
def Halt.LacksRoom (capacity : Nat) (h : Halt) : Prop :=
  h = .noRoom ∧ PoolStore.maxCapacity < capacity

/-- Where operators return, a run is halted only for lack of room. -/
theorem lasting_within {ctx : RunContext σ} {P : σ → Prop} (hhost : ctx.host.Steady P)
    (hreturn : ctx.host.OperatorsReturn P) (capacity : Nat) :
    Lasting ctx (Operator.Safe ctx P fun _ => False) (fun _ => True) (Halt.LacksRoom capacity)
      (Run.Within P capacity) where
  refusal _ := trivial
  warn _ hr := ⟨hr.state, hr.pools⟩
  retry hr := ⟨hr.state, hr.pools⟩
  resolve name profile hr := ⟨hhost.resolve name profile _ hr.state, hr.pools⟩
  found name profile op hr h :=
    ⟨hhost.found name profile _ op hr.state h, hreturn name profile _ op hr.state h⟩
  attempt {r r' node op name depth input args result} hop hr h := by
    cases h
    have hstate := hhost.invoke_state hop.1 r.pools depth input args r.state hr.state
    refine ⟨fun _ => ⟨hhost.record name op.tier _ _ hstate, hr.pools⟩, fun h hh => ?_⟩
    exact (hop.2 r.pools depth input args r.state h hr.state hh).elim
  print _ _ hr := ⟨hr.state, hr.pools⟩
  render _ _ hr := ⟨hr.state, hr.pools⟩
  step hr := ⟨hr.state, hr.pools⟩
  cancelled _ _ := trivial
  exhausted := trivial
  start _ _ hr := ⟨hr.state, hr.pools⟩
  complete _ _ hr := ⟨hr.state, hr.pools⟩
  fail _ _ hr _ := ⟨hr.state, hr.pools⟩
  make {r pool pools} message hr h := by
    have hmakes := r.pools.ensure_makes pool
    rw [h] at hmakes
    exact ⟨hr.state, Eq.trans hmakes hr.pools⟩
  full {r pool h'} hr h := by
    have hmakes := r.pools.ensure_makes pool
    rw [h] at hmakes
    obtain ⟨rfl, hfull⟩ := hmakes
    exact ⟨rfl, by rw [← hr.pools]; exact hfull⟩
  write value hr _ := ⟨hr.state, by rw [Run.written, PoolStore.write_capacity]; exact hr.pools⟩
  notify hr := ⟨hr.state, hr.pools⟩
  activate _ _ hr := ⟨hr.state, hr.pools⟩
  preload library hr := ⟨hhost.preload library _ hr.state, hr.pools⟩

/-- Where operators return, a run of a program finishes, unless there is no room. -/
theorem Engine.run_within {engine : Engine σ} {P : σ → Prop} (hhost : engine.host.Steady P)
    (hreturn : engine.host.OperatorsReturn P) (program : Program) {s : σ} (hs : P s) :
    match engine.run program s with
    | .ok _ => True
    | .error halted => halted.halt.LacksRoom (max engine.config.historyCapacity 1) := by
  let capacity := max engine.config.historyCapacity 1
  have hl : Lasting (engine.context program) _ _ (Halt.LacksRoom capacity)
      (Run.Within P capacity) :=
    lasting_within hhost hreturn capacity
  have hruns : ∀ root seed, (Exec.execute (engine.context program) root seed).Keeps
      (Halt.LacksRoom capacity) (Run.Within P capacity) :=
    fun root seed => Exec.keeps_runNested hl trivial _ root seed
  have hmakes := Exec.initialPools_makes (engine.context program)
  have hstart : ∀ initial, Exec.initialPools (engine.context program) = .ok initial →
      (startState (engine.context program) initial s).Within P capacity := by
    intro initial hinitial
    rw [hinitial] at hmakes
    exact ⟨hs, hmakes⟩
  have hpools : ∀ h, Exec.initialPools (engine.context program) = .error h →
      h.LacksRoom capacity := by
    intro h hinitial
    rw [hinitial] at hmakes
    exact hmakes
  have hkeeps := Engine.run_keeps hstart hpools fun initial =>
    Exec.keeps_runAll hl.toNoting initial (fun root _ => hruns root none)
      (fun root _ => hruns root none) fun s _ value => hruns s.root (some value)
  match hrun : engine.run program s with
  | .ok finished => trivial
  | .error halted =>
    rw [hrun] at hkeeps
    exact hkeeps

-- ============================================================================
-- Ends
-- ============================================================================

/-- Where operators return, every run of every program comes to an end: it finishes, unless there
is no room for a history. From wherever a run starts, the machine takes steps until it can take
no more, and has then come to what the run comes to. All the while its counter of levels is the
number of writes that are under way, so it is back where it was after each of them; the runs
that are nested below the first are at most as many as the settings allow levels, and none of
them has run more nodes than the settings allow. -/
theorem Engine.run_terminates (engine : Engine σ) (program : Program) (P : σ → Prop) (s : σ)
    (hhost : engine.host.Steady P) (hreturn : engine.host.OperatorsReturn P) (hs : P s) :
    ((∃ finished, engine.run program s = .ok finished) ∨
      PoolStore.maxCapacity < engine.config.historyCapacity ∧
        ∃ output, engine.run program s = .error ⟨.noRoom, output⟩) ∧
    ∀ root seed r,
      (∃ last, Machine.Steps (engine.context program)
          (.start (engine.context program) root seed r) last ∧
        last.step (engine.context program) = none ∧
        last.outcome = (Exec.execute (engine.context program) root seed).outcome r) ∧
      ∀ m, Machine.Steps (engine.context program)
          (.start (engine.context program) root seed r) m →
        m.depth = m.frames.countP (fun frame => frame.isFan) ∧
        m.frames.countP (fun frame => !frame.isFan) ≤ engine.config.maxSubscriberDepth + 1 ∧
        ∀ frame ∈ m.frames, frame.steps ≤ engine.config.maxSteps := by
  refine ⟨?_, fun root seed r => ⟨?_, fun m hsteps => ?_⟩⟩
  · have hwithin := Engine.run_within hhost hreturn program hs
    match hrun : engine.run program s with
    | .ok finished => exact .inl ⟨finished, rfl⟩
    | .error ⟨halt, output⟩ =>
      rw [hrun] at hwithin
      obtain ⟨rfl, hcapacity⟩ : halt = .noRoom ∧
          PoolStore.maxCapacity < max engine.config.historyCapacity 1 := hwithin
      have hone : 1 ≤ PoolStore.maxCapacity := by decide
      exact .inr ⟨by omega, output, rfl⟩
  · exact (Machine.returns_runNested _ (Nat.zero_add _) root seed [] r).ends
  · have hsound := (Machine.sound_start root seed r).steps hsteps
    rcases hsound with ⟨hframes, hdepth⟩ | ⟨b, hnested⟩
    · rw [hframes, hdepth]
      exact ⟨rfl, Nat.zero_le _, List.forall_mem_nil _⟩
    · obtain ⟨hfans, hwalks, hdepth, hall⟩ := hnested.counts
      exact ⟨hfans.symm, by rw [hwalks]; exact hdepth, hall⟩

/-- A graph that no source text builds: a pipeline that goes in circles, connections that lead out
of the graph, and subscriptions on one pool that write to it or start nowhere. -/
def tangle : Program where
  nodes :=
    #[⟨⟨.finiteSource "1", "~", [], "~ 1"⟩, 0, 1, false, 0, none⟩,
      ⟨⟨.poolWrite "p", "to_pool", [], "to_pool(p)"⟩, 1, 1, false, 0, none⟩,
      ⟨⟨.poolAccess "p", "p", [], "p"⟩, 2, 2, false, 1, none⟩,
      ⟨⟨.poolWrite "p", "to_pool", [], "to_pool(p)"⟩, 3, 2, false, 1, none⟩]
  connections :=
    #[⟨0, 0, 1, .pipe⟩, ⟨1, 1, 0, .pipe⟩, ⟨2, 2, 3, .pipe⟩, ⟨3, 3, 3, .pipe⟩, ⟨4, 3, 99, .pipe⟩]
  subscriptions := [⟨"p", 1, 2, 2⟩, ⟨"p", 2, 77, 2⟩]
  pipelineCount := 2

/-- The tangle is run to its end, and so is its pipeline that goes in circles. -/
theorem Engine.tangle_terminates :
    (∃ finished, Engine.echo.run tangle () = .ok finished) ∧
    ∀ r, ∃ last,
      Machine.Steps (Engine.echo.context tangle)
        (.start (Engine.echo.context tangle) 0 none r) last ∧
      last.step (Engine.echo.context tangle) = none := by
  obtain ⟨hends, hmachine⟩ := Engine.run_terminates Engine.echo tangle
    (fun _ => True) () Host.echo_neverCancelled.toSteady Host.echo_operatorsReturn trivial
  refine ⟨?_, fun r => ?_⟩
  · rcases hends with hfinished | ⟨hfull, -⟩
    · exact hfinished
    · exact absurd hfull (by decide)
  · obtain ⟨⟨last, hsteps, hlast, -⟩, -⟩ := hmachine 0 none r
    exact ⟨last, hsteps, hlast⟩

end Sluice
