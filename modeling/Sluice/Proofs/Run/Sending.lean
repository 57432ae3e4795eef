/-
  Sluice.Proofs.Run.Sending

  What becomes of the events of a run. Every one of them is tried once to send, in order, to the
  channel that the run started with, so at any moment the channel is what these tries have made
  of it. A bounded channel then holds the first events that it has room for, and an unbounded one
  holds them all.
-/

import Sluice.Proofs.Run.Keeping

namespace Sluice

variable {σ τ : Type}

-- ============================================================================
-- Channels
-- ============================================================================

namespace Channel

/-- A channel takes events while fewer than a number of them wait in it. An event that it has no
room for is lost, and those that wait stay. -/
structure Bounded (capacity : Nat) (c : Channel) : Prop where
  takes : ∀ event waiting, waiting.length < capacity →
    c.trySend event waiting = (.taken, waiting ++ [event])
  full : ∀ event waiting, capacity ≤ waiting.length → c.trySend event waiting = (.full, waiting)

/-- A channel takes every event. -/
structure Unbounded (c : Channel) : Prop where
  takes : ∀ event waiting, c.trySend event waiting = (.taken, waiting ++ [event])

theorem bounded_bounded (capacity : Nat) : (bounded capacity).Bounded capacity where
  takes _ _ hroom := if_pos hroom
  full _ _ hfull := if_neg (Nat.not_lt.2 hfull)

theorem unbounded_unbounded : unbounded.Unbounded :=
  ⟨fun _ _ => rfl⟩

/-- What is sent to an observer in order. -/
def emitAll (channel : Option Channel) (events : List Event) : Option Channel :=
  events.foldl emit channel

theorem emitAll_append (channel : Option Channel) (events events' : List Event) :
    emitAll channel (events ++ events') = emitAll (emitAll channel events) events' :=
  List.foldl_append

variable {capacity : Nat} {c : Channel}

theorem Bounded.send (h : c.Bounded capacity) (event : Event) : (c.send event).Bounded capacity :=
  ⟨h.takes, h.full⟩

theorem Unbounded.send (h : c.Unbounded) (event : Event) : (c.send event).Unbounded :=
  ⟨h.takes⟩

theorem Bounded.waiting_send (h : c.Bounded capacity) (event : Event)
    (hfits : c.waiting.length ≤ capacity) :
    (c.send event).waiting = (c.waiting ++ [event]).take capacity := by
  show (c.trySend event c.waiting).2 = _
  by_cases hroom : c.waiting.length < capacity
  · rw [h.takes event c.waiting hroom, List.take_of_length_le]
    rw [List.length_append, List.length_singleton]
    exact hroom
  · have hfull : capacity = c.waiting.length := by omega
    rw [h.full event c.waiting hfull.le, hfull, List.take_left]

/-- A bounded channel holds the first events that it has room for. -/
theorem Bounded.waiting_emitAll (h : c.Bounded capacity) (hfits : c.waiting.length ≤ capacity)
    (events : List Event) :
    (emitAll (some c) events).map Channel.waiting =
      some ((c.waiting ++ events).take capacity) := by
  induction events generalizing c with
  | nil =>
    rw [List.append_nil, List.take_of_length_le hfits]
    rfl
  | cons event rest ih =>
    have hsent := h.waiting_send event hfits
    have hfits' : (c.send event).waiting.length ≤ capacity := by
      rw [hsent, List.length_take]
      exact Nat.min_le_left _ _
    show (emitAll (some (c.send event)) rest).map Channel.waiting = _
    have hroom : capacity - min capacity (c.waiting ++ [event]).length =
        capacity - (c.waiting ++ [event]).length := by omega
    rw [ih (h.send event) hfits', hsent, List.take_append, List.take_take, Nat.min_self,
      List.length_take, hroom, ← List.take_append, List.append_assoc, List.singleton_append]

/-- An unbounded channel holds all events. -/
theorem Unbounded.waiting_emitAll (h : c.Unbounded) (events : List Event) :
    (emitAll (some c) events).map Channel.waiting = some (c.waiting ++ events) := by
  induction events generalizing c with
  | nil =>
    rw [List.append_nil]
    rfl
  | cons event rest ih =>
    have hsent : (c.send event).waiting = c.waiting ++ [event] :=
      congrArg Prod.snd (h.takes event c.waiting)
    show (emitAll (some (c.send event)) rest).map Channel.waiting = _
    rw [ih (h.send event), hsent, List.append_assoc, List.singleton_append]

end Channel

-- ============================================================================
-- The channel of a run
-- ============================================================================

/-- The channel of a run is what its events have made of the one at its start. -/
def Run.SentAll (start : Option Channel) (r : Run σ) : Prop :=
  r.channel = Channel.emitAll start r.events.toList

theorem Run.SentAll.emit {start : Option Channel} {r : Run σ} (h : r.SentAll start)
    (event : Event) : (r.emit event).SentAll start := by
  show Channel.emit r.channel event = Channel.emitAll start (r.events.push event).toList
  rw [Array.toList_push, Channel.emitAll_append, show r.channel = _ from h]
  rfl

/-- A run sends every event, whatever it does. -/
theorem lasting_sentAll (ctx : RunContext σ) (start : Option Channel) :
    Lasting ctx (fun _ => True) (fun _ => True) (fun _ => True) (Run.SentAll start) where
  refusal _ := trivial
  warn _ hr := hr
  retry hr := hr
  resolve _ _ hr := hr
  found _ _ _ _ _ := trivial
  attempt _ hr h := by
    cases h
    exact ⟨fun _ => hr, fun _ _ => trivial⟩
  print _ _ hr := hr.emit _
  render _ _ hr := hr.emit _
  step hr := hr
  cancelled _ _ := trivial
  exhausted := trivial
  start _ _ hr := Run.SentAll.emit (show Run.SentAll start (Run.count _ _) from hr) _
  complete _ _ hr := hr.emit _
  fail _ _ hr _ := hr.emit _
  make _ hr _ := hr
  full _ _ := trivial
  write _ hr _ := hr.emit _
  notify hr := hr
  activate _ _ hr := Run.SentAll.emit (show Run.SentAll start (Run.count _ _) from hr) _
  preload _ hr := hr

namespace Engine

/-- What an observer finds in its channel after a run. -/
def Finished.heard (finished : Finished σ) : List Event :=
  (finished.channel.map fun c => c.drain.1).getD []

/-- At the end of a run every event of it was sent. -/
theorem channel_eq_emitAll {engine : Engine σ} {program : Program} {s : σ} {finished : Finished σ}
    (hrun : engine.run program s = .ok finished) :
    finished.channel = Channel.emitAll engine.channel finished.events := by
  have hl := lasting_sentAll (engine.context program) engine.channel
  have hruns : ∀ root seed, (Exec.execute (engine.context program) root seed).Keeps
      (fun _ => True) (Run.SentAll engine.channel) :=
    fun root seed => Exec.keeps_runNested hl trivial _ root seed
  have hstart : ∀ initial,
      (startState (engine.context program) initial s).SentAll engine.channel := fun _ => rfl
  have hends := run_ends (fun initial _ => hstart initial) (fun _ _ => trivial) fun initial =>
    Exec.keeps_runAll hl.toNoting initial (fun root _ => hruns root none)
      (fun root _ => hruns root none) fun s _ value => hruns s.root (some value)
  rw [hrun] at hends
  obtain ⟨r, hr, rfl⟩ := hends
  exact hr

/-- Runs that start with one channel and have the same events end with one channel. -/
theorem channel_congr {engine : Engine σ} {engine' : Engine τ} {program : Program} {s : σ} {s' : τ}
    {finished : Finished σ} {finished' : Finished τ} (hrun : engine.run program s = .ok finished)
    (hrun' : engine'.run program s' = .ok finished') (hevents : finished'.events = finished.events)
    (hchannel : engine'.channel = engine.channel) : finished'.channel = finished.channel := by
  rw [channel_eq_emitAll hrun, channel_eq_emitAll hrun', hchannel, hevents]

/-- An observer with a bounded channel hears the first events of a run. -/
theorem heard_eq_take {engine : Engine σ} {program : Program} {s : σ} {finished : Finished σ}
    {c : Channel} {capacity : Nat} (hchannel : engine.channel = some c)
    (hbounded : c.Bounded capacity) (hempty : c.waiting = [])
    (hrun : engine.run program s = .ok finished) :
    finished.heard = finished.events.take capacity := by
  have hwaiting := hbounded.waiting_emitAll (by simp [hempty]) finished.events
  unfold Finished.heard
  rw [channel_eq_emitAll hrun, hchannel]
  show (Option.map Channel.waiting _).getD [] = _
  rw [hwaiting, hempty]
  rfl

/-- An observer with an unbounded channel hears every event of a run. -/
theorem heard_eq_events {engine : Engine σ} {program : Program} {s : σ} {finished : Finished σ}
    {c : Channel} (hchannel : engine.channel = some c) (hunbounded : c.Unbounded)
    (hempty : c.waiting = []) (hrun : engine.run program s = .ok finished) :
    finished.heard = finished.events := by
  have hwaiting := hunbounded.waiting_emitAll finished.events
  unfold Finished.heard
  rw [channel_eq_emitAll hrun, hchannel]
  show (Option.map Channel.waiting _).getD [] = _
  rw [hwaiting, hempty]
  rfl

end Engine

end Sluice
