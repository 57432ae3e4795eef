/-
  Sluice.Proofs.Run.Telling

  What the walk of a pipeline tells between its start and its end: printed lines, rendered
  values, and writes with their fans. Operators and lenses tell nothing, so of the moves of a
  walk the invariant `Telling` has to grow with three only.

  The fans are a hypothesis here. They are runs of other pipelines, and the induction over the
  levels of subscribers supplies them.
-/

import Sluice.Proofs.Host.Steady
import Sluice.Proofs.Pool.Capacity
import Sluice.Proofs.Run.Grammar
import Sluice.Proofs.Run.Keeping

namespace Sluice

variable {σ : Type}

-- ============================================================================
-- Calm states
-- ============================================================================

/-- A run that was not stopped, with its host in a set of states and room for another pool. -/
structure Run.Calm (P : σ → Prop) (halts : Halt → Prop) (r : Run σ) : Prop where
  state : P r.state
  running : r.stopped = false
  room : halts .noRoom ∨ r.pools.capacity ≤ PoolStore.maxCapacity

/-- What is assumed of a run: its host is never cancelled, and operators halt only as `halts`
allows. -/
structure Observed (ctx : RunContext σ) (P : σ → Prop) (halts : Halt → Prop) : Prop where
  host : ctx.host.NeverCancelled P
  halting : ∀ name profile s op, P s → (ctx.host.resolve name profile s).1 = .ok op →
    ∀ pools depth input args t h, P t →
      (op.invoke (some pools) (ctx.host.caller pools depth) input args t).1 = .error (.halt h) →
        halts h

/-- A calm run that told only items since some moment. -/
structure Telling (ctx : RunContext σ) (P : σ → Prop) (halts : Halt → Prop) (depth : Nat)
    (before : List Event) (r : Run σ) : Prop extends r.Calm P halts where
  told : ∃ items, ItemsWord ctx depth items ∧ r.events.toList = before ++ items

/-- An outcome that leaves the run calm and added a word of a language to the events, unless it
is a halt that `halts` allows. -/
def Exec.Spoke (P : σ → Prop) (halts : Halt → Prop) (language : List Event → Prop)
    (before : List Event) : Except Halt Unit × Run σ → Prop
  | (.ok _, r) => r.Calm P halts ∧ ∃ word, language word ∧ r.events.toList = before ++ word
  | (.error h, _) => halts h

/-- A part of a run tells a word of a language, if it ends, and leaves the run calm. -/
def Exec.Speaks (P : σ → Prop) (halts : Halt → Prop) (language : List Event → Prop)
    (m : Exec σ Unit) : Prop :=
  ∀ r, r.Calm P halts → Exec.Spoke P halts language r.events.toList (m.outcome r)

section

variable {ctx : RunContext σ} {P : σ → Prop} {halts : Halt → Prop} {depth : Nat}
  {before : List Event}

/-- What makes an operator safe for a calm run. -/
def Operator.Safe (ctx : RunContext σ) (P : σ → Prop) (halts : Halt → Prop) (op : Operator σ) :
    Prop :=
  op.StaysIn P ∧ ∀ pools depth input args t h, P t →
    (op.invoke (some pools) (ctx.host.caller pools depth) input args t).1 = .error (.halt h) →
      halts h

/-- Telling one more item. -/
theorem Telling.emit {r : Run σ} {event : Event} (hr : Telling ctx P halts depth before r)
    (hevent : ItemsWord ctx depth [event]) :
    Telling ctx P halts depth before (r.emit event) := by
  obtain ⟨items, hitems, heq⟩ := hr.told
  refine ⟨⟨hr.state, hr.running, hr.room⟩, items ++ [event], hitems.append hevent, ?_⟩
  show (r.events.push event).toList = _
  rw [Array.toList_push, heq, List.append_assoc]

/-- Operators and lenses tell nothing, and a walk between two writes prints and renders. -/
theorem walkable_telling (ho : Observed ctx P halts) :
    Walkable ctx (Operator.Safe ctx P halts) (· ≠ .cancelled) halts
      (Telling ctx P halts depth before) where
  refusal e := by cases e <;> simp [Cause.ofRefusal]
  warn _ hr := ⟨⟨hr.state, hr.running, hr.room⟩, hr.told⟩
  retry hr := ⟨⟨hr.state, hr.running, hr.room⟩, hr.told⟩
  resolve name profile hr :=
    ⟨⟨ho.host.resolve name profile _ hr.state, hr.running, hr.room⟩, hr.told⟩
  found name profile op hr h :=
    ⟨ho.host.found name profile _ op hr.state h, ho.halting name profile _ op hr.state h⟩
  attempt {r r' node op name depth input args result} hop hr h := by
    cases h
    have hstate := ho.host.invoke_state hop.1 r.pools depth input args r.state hr.state
    refine ⟨fun _ => ⟨⟨ho.host.record name op.tier _ _ hstate, hr.running, hr.room⟩, hr.told⟩, ?_⟩
    exact fun h hh => hop.2 r.pools depth input args r.state h hr.state hh
  print pipeline text hr := by
    have h := hr.emit (.printed pipeline text .nil)
    exact ⟨⟨h.state, h.running, h.room⟩, h.told⟩
  render pipeline value hr := hr.emit (.rendered pipeline value .nil)
  step hr := ⟨⟨hr.state, hr.running, hr.room⟩, hr.told⟩
  cancelled {r} hr h := by
    rw [ho.host.running _ hr.state] at h
    cases h
  exhausted := by simp

-- ============================================================================
-- The walk of a pipeline
-- ============================================================================

/-- Notifying tells the fan of a write. -/
def Fans (ctx : RunContext σ) (P : σ → Prop) (halts : Halt → Prop) (depth : Nat)
    (notify : String → Value → Exec σ Unit) : Prop :=
  ∀ pool value, (notify pool value).Speaks P halts
    (FanWord ctx depth pool value (ctx.plan.subscribersOf pool))

/-- A write and its fan, from a calm state on. -/
theorem ends_written {notify : String → Value → Exec σ Unit} (hfan : Fans ctx P halts depth notify)
    (pool : String) (value : Value) {r : Run σ} (hr : Telling ctx P halts depth before r) :
    Step.Ends (· ≠ .cancelled) halts (Telling ctx P halts depth before)
      (Step.outcome (ExceptT.lift (notify pool value)) (r.written pool value)) := by
  have hcalm : (r.written pool value).Calm P halts :=
    ⟨hr.state, hr.running, by rw [Run.written, PoolStore.write_capacity]; exact hr.room⟩
  have hspeaks := hfan pool value _ hcalm
  rw [Step.outcome_lift]
  match hout : (notify pool value).outcome (r.written pool value) with
  | (.error h, r') =>
    rw [hout] at hspeaks
    exact hspeaks
  | (.ok _, r') =>
    rw [hout] at hspeaks
    obtain ⟨hcalm', fan, hword, hevents⟩ := hspeaks
    obtain ⟨items, hitems, heq⟩ := hr.told
    let event : Event := .poolUpdated pool value ((r.pools.write pool value).1.getD 0)
    refine ⟨hcalm', items ++ (event :: (fan ++ [])), ?_, ?_⟩
    · exact hitems.append (.wrote pool value _ hword .nil)
    · rw [hevents]
      show (r.events.push event).toList ++ fan = _
      rw [Array.toList_push, heq]
      simp

theorem keeps_writePool {notify : String → Value → Exec σ Unit}
    (hfan : Fans ctx P halts depth notify) (node : Node) (pool : String) (value : Value) :
    Step.Keeps (· ≠ .cancelled) halts (Telling ctx P halts depth before)
      (Step.writePool notify node pool value) := by
  intro r hr
  unfold Step.writePool
  rw [Step.outcome_get_bind]
  split
  · have hmakes := r.pools.ensure_makes pool
    match hensure : r.pools.ensure pool with
    | .error h =>
      -- A pool that cannot be made halts the run, where halting is allowed.
      rw [hensure] at hmakes
      obtain ⟨rfl, hfull⟩ := hmakes
      rcases hr.room with hroom | hroom
      · exact hroom
      · exact absurd hroom (Nat.not_le_of_lt hfull)
    | .ok pools =>
      rw [hensure] at hmakes
      have hmade : Telling ctx P halts depth before
          { (r.warn (Warning.render ⟨node.line, .undeclaredWrite pool⟩)) with pools } := by
        refine ⟨⟨hr.state, hr.running, ?_⟩, hr.told⟩
        show halts .noRoom ∨ pools.capacity ≤ PoolStore.maxCapacity
        rw [show pools.capacity = r.pools.capacity from hmakes]
        exact hr.room
      exact ends_written hfan pool value hmade
  · exact ends_written hfan pool value hr

/-- A walk tells items only, whatever it passes and however it ends. -/
theorem keeps_walk (ho : Observed ctx P halts) {notify : String → Value → Exec σ Unit}
    (hfan : Fans ctx P halts depth notify) (budget : Nat) (id : NodeId) (packet : Packet)
    (seed : Option Value) :
    Step.Keeps (· ≠ .cancelled) halts (Telling ctx P halts depth before)
      (Step.walk ctx notify budget id packet seed) :=
  Step.keeps_walk (walkable_telling ho) RunContext.closed_univ
    (fun _ _ _ value => keeps_writePool hfan _ _ value) budget trivial packet seed

end

end Sluice
