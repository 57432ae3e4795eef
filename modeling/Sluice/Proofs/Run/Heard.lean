/-
  Sluice.Proofs.Run.Heard

  What is heard of a run agrees with its report. A run keeps two records of what happens: the
  events, and the report with its pools. Both are written at the same places, so they agree at
  every moment, however runs of subscribers interleave with the runs that feed them.

  What becomes of an event is up to the channel that it is sent to. A run never looks at its
  channel, so it is the same run whatever the channel does with the events, and observers with
  different channels hear different parts of the same events.
-/

import Sluice.Proofs.Run.Accounts
import Sluice.Proofs.Run.Lockstep

namespace Sluice

variable {σ α : Type}

-- ============================================================================
-- Other observers
-- ============================================================================

/-- A host answers like itself. -/
theorem Host.mirrors_self (host : Host σ) : host.Mirrors (fun _ s s' => s' = s) host where
  resolve _ _ hs := by rw [hs]
  found {n s s'} name profile hs := by
    rw [hs]
    cases (host.resolve name profile s).1 with
    | error e => rfl
    | ok op =>
      refine ⟨rfl, fun pools depth input args hs => ?_⟩
      rw [hs]
      exact ⟨rfl, rfl, rfl, fun _ => rfl⟩
  record _ _ _ hs := by rw [hs]
  preload _ hs := by
    rw [hs]
    exact ⟨rfl, rfl⟩
  drainWarnings hs := by
    rw [hs]
    exact ⟨rfl, rfl⟩
  isCancelled hs := by rw [hs]

namespace Engine

/-- Runs that differ in nothing but their observers. -/
inductive Unobserved : Except Halted (Finished σ) → Except Halted (Finished σ) → Prop
  | finished {finished finished' : Finished σ} (hreport : finished'.report = finished.report)
    (hevents : finished'.events = finished.events) (hstate : finished'.state = finished.state) :
    Unobserved (.ok finished) (.ok finished')
  | halted (halted : Halted) : Unobserved (.error halted) (.error halted)

/-- Whatever a channel does with the events, and whether there is one, a run is the same. -/
theorem run_unobserved (engine : Engine σ) (channel : Option Channel) (program : Program) (s : σ) :
    Unobserved (engine.run program s) ({ engine with channel }.run program s) := by
  have hmirrors : engine.host.Mirrors (fun _ s s' => s' = s) { engine with channel }.host :=
    engine.host.mirrors_self
  have hconfig : { engine with channel }.config = engine.config := rfl
  have hlockstep := run_lockstep hconfig rfl hmirrors program (rfl : s = s)
  generalize engine.run program s = out at hlockstep ⊢
  generalize { engine with channel }.run program s = out' at hlockstep ⊢
  match out, out' with
  | .ok finished, .ok finished' =>
    obtain ⟨hreport, hevents, hstate⟩ := hlockstep
    exact .finished hreport hevents hstate
  | .error halted, .error halted' =>
    obtain rfl : halted' = halted := hlockstep
    exact .halted _
  | .ok finished, .error halted => exact hlockstep.elim
  | .error halted, .ok finished => exact hlockstep.elim

end Engine

-- ============================================================================
-- Two records of a run
-- ============================================================================

namespace Event

/-- The line that was printed. -/
def printedText? : Event → Option String
  | .printed _ text => some text
  | _ => none

/-- Whether a pipeline started. -/
def isStarted : Event → Bool
  | .started _ _ => true
  | _ => false

/-- The failure of a pipeline. -/
def failure? : Event → Option Failure
  | .failed _ failure => some failure
  | _ => none

/-- The value written to a pool, with the count of its writes. -/
def update? (pool : String) : Event → Option (Value × Nat)
  | .poolUpdated name value updates => if name = pool then some (value, updates) else none
  | _ => none

end Event

/-- A pool that was written to as told: its writes were counted one by one, and its history is
what fits of its first value and all that followed. -/
def Pool.ToldBy (capacity : Nat) (first : Value) (updates : List (Value × Nat)) (pool : Pool) :
    Prop :=
  updates.map (·.2) = List.range' 1 pool.updates ∧
    pool.history = lastOf capacity (first :: updates.map (·.1))

theorem Pool.ToldBy.write {capacity : Nat} (hcapacity : 0 < capacity) {first : Value}
    {updates : List (Value × Nat)} {pool : Pool} (h : pool.ToldBy capacity first updates)
    (value : Value) :
    (pool.write capacity value).ToldBy capacity first
      (updates ++ [(value, pool.updates + 1)]) := by
  refine ⟨?_, ?_⟩
  · show _ = List.range' 1 (pool.updates + 1)
    rw [List.map_append, h.1, List.range'_concat]
    simp [Nat.add_comm]
  · show (if capacity ≤ pool.history.length then _ else _) ++ [value] = _
    rw [h.2, List.map_append, ← List.cons_append]
    exact lastOf_concat hcapacity _ value

/-- What was told of a run agrees with what it has gathered, from some initial pools on. -/
structure Run.Told (initial : PoolStore) (r : Run σ) : Prop where
  output : r.events.toList.filterMap Event.printedText? = r.output.toList
  started : r.events.toList.countP Event.isStarted = r.metrics.pipelinesRun
  failures : r.events.toList.filterMap Event.failure? = r.errors.toList
  capacity : r.pools.capacity = initial.capacity
  /-- A pool that is missing was missing from the start and never written to. -/
  missing : ∀ name, r.pools.get? name = none →
    initial.get? name = none ∧ r.events.toList.filterMap (Event.update? name) = []
  pools : ∀ name pool, r.pools.get? name = some pool →
    pool.ToldBy initial.capacity ((initial.value? name).getD .null)
      (r.events.toList.filterMap (Event.update? name))

theorem filterMap_push_none {β : Type} {f : Event → Option β} {event : Event} (h : f event = none)
    (events : Array Event) :
    (events.push event).toList.filterMap f = events.toList.filterMap f := by
  rw [Array.toList_push, List.filterMap_append, List.filterMap_cons_none h, List.filterMap_nil,
    List.append_nil]

theorem filterMap_push_some {β : Type} {f : Event → Option β} {event : Event} {b : β}
    (h : f event = some b) (events : Array Event) :
    (events.push event).toList.filterMap f = events.toList.filterMap f ++ [b] := by
  rw [Array.toList_push, List.filterMap_append, List.filterMap_cons_some h, List.filterMap_nil]

theorem countP_push {f : Event → Bool} {event : Event} (events : Array Event) :
    (events.push event).toList.countP f =
      events.toList.countP f + if f event then 1 else 0 := by
  rw [Array.toList_push, List.countP_append, List.countP_singleton]

namespace Run.Told

variable {initial : PoolStore} {r : Run σ}

/-- Telling what leaves all pools as they are, with what else it tells gathered. -/
theorem gather (h : r.Told initial) {r' : Run σ} (event : Event)
    (hevents : r'.events = r.events.push event) (hpools : r'.pools = r.pools)
    (hupdate : ∀ name, event.update? name = none)
    (houtput : r'.output.toList = r.output.toList ++ event.printedText?.toList)
    (hstarted : r'.metrics.pipelinesRun =
      r.metrics.pipelinesRun + if event.isStarted then 1 else 0)
    (hfailures : r'.errors.toList = r.errors.toList ++ event.failure?.toList) :
    r'.Told initial := by
  have hkept : ∀ name, r'.events.toList.filterMap (Event.update? name) =
      r.events.toList.filterMap (Event.update? name) := by
    intro name
    rw [hevents, filterMap_push_none (hupdate name)]
  have hgathered : ∀ {β : Type} (f : Event → Option β), r'.events.toList.filterMap f =
      r.events.toList.filterMap f ++ (f event).toList := by
    intro β f
    rw [hevents]
    match hf : f event with
    | none => rw [filterMap_push_none hf, Option.toList_none, List.append_nil]
    | some b => rw [filterMap_push_some hf, Option.toList_some]
  constructor
  case output => rw [hgathered, h.output, houtput]
  case started => rw [hevents, countP_push, h.started, hstarted]
  case failures => rw [hgathered, h.failures, hfailures]
  case capacity => rw [hpools, h.capacity]
  case missing =>
    intro name hname
    rw [hpools] at hname
    rw [hkept]
    exact h.missing name hname
  case pools =>
    intro name pool hpool
    rw [hpools] at hpool
    rw [hkept]
    exact h.pools name pool hpool

theorem make (h : r.Told initial) (hroom : 0 < initial.capacity) {name : String}
    {pools : PoolStore} (message : String) (hensure : r.pools.ensure name = .ok pools) :
    Run.Told initial { (r.warn message) with pools } := by
  rcases PoolStore.ensure_cases hensure with ⟨-, rfl⟩ | ⟨hmissing, rfl⟩
  · exact ⟨h.output, h.started, h.failures, h.capacity, h.missing, h.pools⟩
  · obtain ⟨hinitial, hupdates⟩ := h.missing name hmissing
    refine ⟨h.output, h.started, h.failures, h.capacity, fun other hother => ?_,
      fun other pool hpool => ?_⟩
    · refine h.missing other ?_
      by_cases hname : other = name
      · rw [hname]
        exact hmissing
      · rw [← PoolStore.get?_put_of_ne hname r.pools (Pool.ofInitial .null)]
        exact hother
    · by_cases hname : other = name
      · -- The pool that was made holds null, and nothing was written to it.
        subst hname
        rw [show PoolStore.get? _ other = _ from PoolStore.get?_put_self _ _ _] at hpool
        cases hpool
        show Pool.ToldBy _ _ (r.events.toList.filterMap (Event.update? other)) _
        rw [hupdates, PoolStore.value?, hinitial]
        refine ⟨rfl, ?_⟩
        show [Value.null] = lastOf initial.capacity [Value.null]
        rw [lastOf, List.length_singleton, Nat.sub_eq_zero_of_le hroom]
        rfl
      · rw [show PoolStore.get? _ other = _ from PoolStore.get?_put_of_ne hname _ _] at hpool
        exact h.pools other pool hpool

theorem write (h : r.Told initial) (hroom : 0 < initial.capacity) {name : String} (value : Value)
    (hcontains : r.pools.contains name = true) : (r.written name value).Told initial := by
  obtain ⟨pool, hpool⟩ := PoolStore.get?_isSome hcontains
  have hwritten := PoolStore.write_of_get? hpool value
  have hevents : (r.written name value).events =
      r.events.push (.poolUpdated name value (pool.updates + 1)) := by
    show r.events.push (.poolUpdated name value ((r.pools.write name value).1.getD 0)) = _
    rw [hwritten]
    rfl
  have hpools : (r.written name value).pools =
      r.pools.put name (pool.write r.pools.capacity value) := by
    show (r.pools.write name value).2 = _
    rw [hwritten]
  constructor
  case output =>
    rw [hevents, filterMap_push_none rfl]
    exact h.output
  case started =>
    rw [hevents, countP_push]
    exact h.started
  case failures =>
    rw [hevents, filterMap_push_none rfl]
    exact h.failures
  case capacity =>
    rw [hpools]
    exact h.capacity
  case missing =>
    intro other hother
    rw [hpools] at hother
    by_cases hname : other = name
    · rw [hname, PoolStore.get?_put_self] at hother
      cases hother
    · rw [PoolStore.get?_put_of_ne hname] at hother
      rw [hevents, filterMap_push_none (if_neg (Ne.symm hname))]
      exact h.missing other hother
  case pools =>
    intro other found hfound
    rw [hpools] at hfound
    by_cases hname : other = name
    · subst hname
      rw [PoolStore.get?_put_self] at hfound
      cases hfound
      rw [hevents, filterMap_push_some (if_pos rfl), h.capacity]
      exact (h.pools other pool hpool).write hroom value
    · rw [PoolStore.get?_put_of_ne hname] at hfound
      rw [hevents, filterMap_push_none (if_neg (Ne.symm hname))]
      exact h.pools other found hfound

end Run.Told

/-- Both records agree through everything that a run does. -/
theorem lasting_told (ctx : RunContext σ) {initial : PoolStore} (hroom : 0 < initial.capacity) :
    Lasting ctx (fun _ => True) (fun _ => True) (fun _ => True) (Run.Told initial) where
  refusal _ := trivial
  warn _ hr := ⟨hr.output, hr.started, hr.failures, hr.capacity, hr.missing, hr.pools⟩
  retry hr := ⟨hr.output, hr.started, hr.failures, hr.capacity, hr.missing, hr.pools⟩
  resolve _ _ hr := ⟨hr.output, hr.started, hr.failures, hr.capacity, hr.missing, hr.pools⟩
  found _ _ _ _ _ := trivial
  attempt _ hr h := by
    cases h
    exact ⟨fun _ => ⟨hr.output, hr.started, hr.failures, hr.capacity, hr.missing, hr.pools⟩,
      fun _ _ => trivial⟩
  print pipeline text hr := hr.gather (.printed pipeline text) rfl rfl (fun _ => rfl)
    Array.toList_push rfl (List.append_nil _).symm
  render pipeline value hr := hr.gather (.rendered pipeline value) rfl rfl
    (fun _ => rfl) (List.append_nil _).symm rfl (List.append_nil _).symm
  step hr := ⟨hr.output, hr.started, hr.failures, hr.capacity, hr.missing, hr.pools⟩
  cancelled _ _ := trivial
  exhausted := trivial
  start pipeline root hr := hr.gather (.started pipeline root) rfl rfl (fun _ => rfl)
    (List.append_nil _).symm rfl (List.append_nil _).symm
  complete pipeline value hr := hr.gather (.completed pipeline value) rfl rfl
    (fun _ => rfl) (List.append_nil _).symm rfl (List.append_nil _).symm
  fail pipeline failure hr _ := hr.gather (.failed pipeline failure) rfl rfl
    (fun _ => rfl) (List.append_nil _).symm rfl Array.toList_push
  make message hr hensure := hr.make hroom message hensure
  full _ _ := trivial
  write value hr hcontains := hr.write hroom value hcontains
  notify hr := ⟨hr.output, hr.started, hr.failures, hr.capacity, hr.missing, hr.pools⟩
  activate pipeline literal hr := hr.gather (.liveActivated pipeline literal) rfl rfl
    (fun _ => rfl) (List.append_nil _).symm rfl (List.append_nil _).symm
  preload _ hr := ⟨hr.output, hr.started, hr.failures, hr.capacity, hr.missing, hr.pools⟩

/-- At the start nothing was told, and every pool holds its initial value only. -/
theorem Run.Told.startState {ctx : RunContext σ} {initial : PoolStore}
    (hinitial : initial.Untouched) (hroom : 0 < initial.capacity) (s : σ) :
    (Engine.startState ctx initial s).Told initial := by
  refine ⟨rfl, rfl, rfl, rfl, fun name hname => ⟨hname, rfl⟩, fun name pool hpool => ?_⟩
  have hpool : initial.get? name = some pool := hpool
  obtain ⟨hhistory, hupdates⟩ := hinitial.fresh _ (Record.mem_of_get? hpool)
  refine ⟨?_, ?_⟩
  · rw [hupdates]
    rfl
  · rw [hhistory, PoolStore.value?, hpool]
    show [pool.value] = lastOf initial.capacity [pool.value]
    rw [lastOf, List.length_singleton, Nat.sub_eq_zero_of_le hroom]
    rfl

-- ============================================================================
-- Events and reports
-- ============================================================================

namespace Engine

/-- Some events agree with a report: printed lines, starts and failures, and for every pool the
counts and values of its writes. -/
structure Tells (engine : Engine σ) (program : Program) (report : Report) (events : List Event) :
    Prop where
  output : events.filterMap Event.printedText? = report.output
  started : events.countP Event.isStarted = report.metrics.pipelinesRun
  failures : events.filterMap Event.failure? = report.errors
  counts : ∀ name, let updates := events.filterMap (Event.update? name)
    updates.map (·.2) = List.range' 1 updates.length
  histories : ∃ initial, Exec.initialPools (engine.context program) = .ok initial ∧
    ∀ name pool, report.pools.get? name = some pool →
      pool.history = lastOf (max engine.config.historyCapacity 1)
        ((initial.value? name).getD .null ::
          (events.filterMap (Event.update? name)).map (·.1))

/-- The events of a run agree with its report, whoever hears of them. -/
theorem tells_of_run {engine : Engine σ} {program : Program} {s : σ} {finished : Finished σ}
    (hrun : engine.run program s = .ok finished) :
    engine.Tells program finished.report finished.events := by
  obtain ⟨initial, r, hinitial, hout, rfl⟩ := run_eq_ok hrun
  have hmakes := Exec.initialPools_makes (engine.context program)
  rw [hinitial] at hmakes
  have hcapacity : initial.capacity = max engine.config.historyCapacity 1 := hmakes
  have hroom : 0 < initial.capacity := by omega
  have hl := lasting_told (engine.context program) hroom
  have hruns : ∀ root seed, (Exec.execute (engine.context program) root seed).Keeps
      (fun _ => True) (Run.Told initial) :=
    fun root seed => Exec.keeps_runNested hl trivial _ root seed
  have hstart : (startState (engine.context program) initial s).Told initial :=
    .startState (Exec.initialPools_untouched hinitial) hroom s
  have hr : r.Told initial :=
    (Exec.keeps_runAll hl.toNoting initial (fun root _ => hruns root none)
      (fun root _ => hruns root none) fun s _ value => hruns s.root (some value)).ends hstart hout
  refine ⟨hr.output, hr.started, hr.failures, fun name => ?_, initial, hinitial,
    fun name pool hpool => ?_⟩
  · match hpool : r.pools.get? name with
    | none =>
      show (r.events.toList.filterMap (Event.update? name)).map (·.2) =
        List.range' 1 (r.events.toList.filterMap (Event.update? name)).length
      rw [(hr.missing name hpool).2]
      rfl
    | some pool =>
      have hcounts := (hr.pools name pool hpool).1
      have hlength := congrArg List.length hcounts
      rw [List.length_map, List.length_range'] at hlength
      rw [← hlength] at hcounts
      exact hcounts
  · rw [← hcapacity]
    exact (hr.pools name pool hpool).2

/-- Through a bounded channel an observer hears the first events of what is heard of the same run
through one without bounds, where the events agree with the report. The report is the same, and so
is the state that is left, through any channel and without one. -/
theorem events_agree_with_report (engine : Engine σ) (program : Program) (s : σ)
    (capacity : Nat) (bounded unbounded : Channel) (hbounded : bounded.Bounded capacity)
    (hunbounded : unbounded.Unbounded) (hempty : bounded.waiting = [])
    (hempty' : unbounded.waiting = []) :
    (∀ channel : Option Channel,
      Unobserved (engine.run program s) ({ engine with channel }.run program s)) ∧
    ∀ finished, (engine.withEvents unbounded).run program s = .ok finished →
      engine.Tells program finished.report finished.heard ∧
      ∃ heard, (engine.withEvents bounded).run program s = .ok heard ∧
        heard.report = finished.report ∧ heard.heard = finished.heard.take capacity := by
  refine ⟨fun channel => engine.run_unobserved channel program s, fun finished hrun => ?_⟩
  have hall : finished.heard = finished.events := heard_eq_events rfl hunbounded hempty' hrun
  have hsame := (engine.withEvents unbounded).run_unobserved (some bounded) program s
  change Unobserved _ ((engine.withEvents bounded).run program s) at hsame
  rw [hrun] at hsame
  match hbound : (engine.withEvents bounded).run program s with
  | .error halted =>
    rw [hbound] at hsame
    cases hsame
  | .ok heard =>
    rw [hbound] at hsame
    cases hsame with
    | finished hreport hevents hstate =>
      have htells := tells_of_run hrun
      rw [hall]
      refine ⟨⟨htells.output, htells.started, htells.failures, htells.counts, htells.histories⟩,
        heard, rfl, hreport, ?_⟩
      rw [heard_eq_take rfl hbounded hempty hbound, hevents]

/-- A pool that is written twice, and whose subscriber prints. -/
def twiceSource : String :=
  "let p = <|> off\np -> print\n~ on | to_pool(p)\n~ off | to_pool(p)\n~ x | nope"

/-- An engine that keeps two values of a pool's history. -/
def twiceEngine : Engine (Session Unit) :=
  Session.engine { historyCapacity := 2 } []

set_option maxRecDepth 4000 in
/-- Through a channel for four of the seventeen events. -/
theorem twice_agrees :
    ∃ finished heard,
      (twiceEngine.withEvents .unbounded).runSource twiceSource (.ofConfig {} ()) =
        .ok finished ∧
      finished.heard.length = 17 ∧
      twiceEngine.Tells (.parse twiceSource) finished.report finished.heard ∧
      (twiceEngine.withEvents (.bounded 4)).runSource twiceSource (.ofConfig {} ()) =
        .ok heard ∧
      heard.report = finished.report ∧ heard.heard = finished.heard.take 4 := by
  have hcount : (match (twiceEngine.withEvents .unbounded).run (.parse twiceSource)
        (.ofConfig {} ()) with
      | .ok finished => decide (finished.heard.length = 17)
      | .error _ => false) = true := by decide +kernel
  have hagree := (events_agree_with_report twiceEngine (.parse twiceSource) (.ofConfig {} ()) 4
    (.bounded 4) .unbounded (Channel.bounded_bounded 4) Channel.unbounded_unbounded rfl rfl).2
  match hrun : (twiceEngine.withEvents .unbounded).run (.parse twiceSource) (.ofConfig {} ()) with
  | .error halted =>
    rw [hrun] at hcount
    cases hcount
  | .ok finished =>
    rw [hrun] at hcount
    obtain ⟨htells, heard, hheard, hreport, hfirst⟩ := hagree finished hrun
    exact ⟨finished, heard, hrun, of_decide_eq_true hcount, htells, hheard, hreport, hfirst⟩

end Engine

end Sluice
