/-
  Sluice.Proofs.Run.Accounts

  The counts in a report agree with what is in it. Failures, calls and writes are counted where
  they are made, so that the counts agree at every moment of a run. Runs of pipelines are counted
  on the way in: a run is ahead of its notifications by one for every pipeline that a phase has
  started, whatever happens below it. A run that was stopped starts no more of them.

  How often operators are invoked is not in a report. A host that counts invocations is told the
  same report, and ends with the number of calls that is in it.
-/

import Sluice.Proofs.Host.Counted
import Sluice.Proofs.Run.Termination

namespace Sluice

variable {σ α : Type}

-- ============================================================================
-- Failures, calls and writes
-- ============================================================================

/-- A cancelled pipeline has failed. -/
def Run.Cancelled (r : Run σ) : Prop :=
  ∃ f ∈ r.errors, f.cause = .cancelled

/-- The counts of a run agree with what it has gathered so far. -/
structure Run.Accounted (r : Run σ) : Prop where
  failures : r.errors.size = r.metrics.failedPipelines
  names : r.metrics.perOperator.Ordered
  calls : r.metrics.perOperator.total id = r.metrics.operatorCalls
  pools : r.pools.pools.Ordered
  writes : r.pools.totalUpdates = r.metrics.poolWrites
  stopped : r.stopped = true → r.Cancelled

theorem Run.Cancelled.fail {r : Run σ} (h : r.Cancelled) (pipeline : PipelineId)
    (failure : Failure) : (r.fail pipeline failure).Cancelled := by
  obtain ⟨f, hf, hcause⟩ := h
  exact ⟨f, Array.mem_push_of_mem _ hf, hcause⟩

/-- Calls that are counted under a name add up to all calls. -/
theorem Metrics.total_countOperator {m : Metrics} (hnames : m.perOperator.Ordered)
    (hcalls : m.perOperator.total id = m.operatorCalls) (name : String) (calls : Nat) :
    (m.countOperator name calls).perOperator.total id =
      (m.countOperator name calls).operatorCalls := by
  have htotal := Record.total_set hnames id name ((m.perOperator.get? name).getD 0 + calls)
  rw [Option.map_id, hcalls] at htotal
  show Record.total id (m.perOperator.set name _) = m.operatorCalls + calls
  simp only [id] at htotal
  omega

/-- A write adds one to the writes of all pools. -/
theorem PoolStore.totalUpdates_write {store : PoolStore} (hordered : store.pools.Ordered)
    {name : String} (hcontains : store.contains name = true) (value : Value) :
    (store.write name value).2.pools.Ordered ∧
      (store.write name value).2.totalUpdates = store.totalUpdates + 1 := by
  obtain ⟨pool, hpool⟩ := get?_isSome hcontains
  have htotal := Record.total_set hordered (·.updates) name (pool.write store.capacity value)
  rw [show store.pools.get? name = some pool from hpool] at htotal
  rw [write_of_get? hpool]
  refine ⟨hordered.set name _, ?_⟩
  have hupdates : (pool.write store.capacity value).updates = pool.updates + 1 := rfl
  simp only [Option.map_some, Option.getD_some, hupdates] at htotal
  show Record.total _ (store.pools.set name _) = Record.total _ store.pools + 1
  omega

/-- A pool that is made has no writes. -/
theorem PoolStore.totalUpdates_ensure {store store' : PoolStore} (hordered : store.pools.Ordered)
    {name : String} (h : store.ensure name = .ok store') :
    store'.pools.Ordered ∧ store'.totalUpdates = store.totalUpdates := by
  rcases ensure_cases h with ⟨-, rfl⟩ | ⟨hmissing, rfl⟩
  · exact ⟨hordered, rfl⟩
  · have htotal := Record.total_set hordered (·.updates) name (Pool.ofInitial .null)
    rw [show store.pools.get? name = none from hmissing] at htotal
    exact ⟨hordered.set name _, htotal⟩

/-- The counts agree through everything that a run does. -/
theorem lasting_accounted (ctx : RunContext σ) :
    Lasting ctx (fun _ => True) (fun _ => True) (fun _ => True) Run.Accounted where
  refusal _ := trivial
  warn _ hr := ⟨hr.failures, hr.names, hr.calls, hr.pools, hr.writes, hr.stopped⟩
  retry hr := ⟨hr.failures, hr.names, hr.calls, hr.pools, hr.writes, hr.stopped⟩
  resolve _ _ hr := ⟨hr.failures, hr.names, hr.calls, hr.pools, hr.writes, hr.stopped⟩
  found _ _ _ _ _ := trivial
  attempt {r r' node op name depth input args result} _ hr h := by
    rw [Step.outcome_attempt_eq] at h
    cases h
    refine ⟨fun _ => ⟨hr.failures, hr.names.set name _, ?_, hr.pools, hr.writes, hr.stopped⟩,
      fun _ _ => trivial⟩
    exact Metrics.total_countOperator hr.names hr.calls name _
  print _ _ hr := ⟨hr.failures, hr.names, hr.calls, hr.pools, hr.writes, hr.stopped⟩
  render _ _ hr := ⟨hr.failures, hr.names, hr.calls, hr.pools, hr.writes, hr.stopped⟩
  step hr := ⟨hr.failures, hr.names, hr.calls, hr.pools, hr.writes, hr.stopped⟩
  cancelled _ _ := trivial
  exhausted := trivial
  start _ _ hr := ⟨hr.failures, hr.names, hr.calls, hr.pools, hr.writes, hr.stopped⟩
  complete _ _ hr := ⟨hr.failures, hr.names, hr.calls, hr.pools, hr.writes, hr.stopped⟩
  fail {r} pipeline failure hr _ := by
    refine ⟨?_, hr.names, hr.calls, hr.pools, hr.writes, fun hstopped => ?_⟩
    · show (r.errors.push failure).size = r.metrics.failedPipelines + 1
      rw [Array.size_push, hr.failures]
    · rcases Bool.or_eq_true_iff.1 hstopped with hbefore | hcause
      · exact (hr.stopped hbefore).fail pipeline failure
      · exact ⟨failure, Array.mem_push_self, beq_iff_eq.1 hcause⟩
  make _ hr hensure := by
    obtain ⟨hordered, htotal⟩ := PoolStore.totalUpdates_ensure hr.pools hensure
    exact ⟨hr.failures, hr.names, hr.calls, hordered, htotal.trans hr.writes, hr.stopped⟩
  full _ _ := trivial
  write value hr hcontains := by
    obtain ⟨hordered, htotal⟩ := PoolStore.totalUpdates_write hr.pools hcontains value
    refine ⟨hr.failures, hr.names, hr.calls, hordered, ?_, hr.stopped⟩
    exact htotal.trans (congrArg (· + 1) hr.writes)
  notify hr := ⟨hr.failures, hr.names, hr.calls, hr.pools, hr.writes, hr.stopped⟩
  activate _ _ hr := ⟨hr.failures, hr.names, hr.calls, hr.pools, hr.writes, hr.stopped⟩
  preload _ hr := ⟨hr.failures, hr.names, hr.calls, hr.pools, hr.writes, hr.stopped⟩

/-- Failures stay. -/
theorem lasting_cancelled (ctx : RunContext σ) :
    Lasting ctx (fun _ => True) (fun _ => True) (fun _ => True) Run.Cancelled where
  refusal _ := trivial
  warn _ hr := hr
  retry hr := hr
  resolve _ _ hr := hr
  found _ _ _ _ _ := trivial
  attempt _ hr h := by
    cases h
    exact ⟨fun _ => hr, fun _ _ => trivial⟩
  print _ _ hr := hr
  render _ _ hr := hr
  step hr := hr
  cancelled _ _ := trivial
  exhausted := trivial
  start _ _ hr := hr
  complete _ _ hr := hr
  fail pipeline failure hr _ := hr.fail pipeline failure
  make _ hr _ := hr
  full _ _ := trivial
  write _ hr _ := hr
  notify hr := hr
  activate _ _ hr := hr
  preload _ hr := hr

/-- The start of a run is accounted for: nothing was written yet. -/
theorem Run.Accounted.startState {ctx : RunContext σ} {initial : PoolStore}
    (hinitial : initial.Untouched) (s : σ) : (Engine.startState ctx initial s).Accounted :=
  ⟨rfl, .nil, rfl, hinitial.ordered, hinitial.totalUpdates_eq, fun h => by cases h⟩

/-- Pools are declared with their initial values. -/
theorem Exec.initialPools_untouched {ctx : RunContext σ} {initial : PoolStore}
    (h : initialPools ctx = .ok initial) : initial.Untouched := by
  unfold initialPools at h
  match hdeclared : ctx.program.pools.contents.foldlM
    (fun store (d : PoolDeclaration) => store.declare d.name (Literal.read ctx.json d.initial))
    (PoolStore.ofCapacity ctx.config.historyCapacity) with
  | .error e =>
    rw [hdeclared] at h
    cases h
  | .ok declared =>
    rw [hdeclared] at h
    exact .foldlM (fun hstore hmade => hstore.subscribe hmade)
      (.foldlM (fun hstore hmade => hstore.declare hmade) (.ofCapacity _) hdeclared) h

-- ============================================================================
-- Runs of pipelines
-- ============================================================================

/-- By how much a run is ahead of its notifications. -/
def Run.surplus (r : Run σ) : Int :=
  r.metrics.pipelinesRun - r.metrics.subscriberNotifications

/-- A walk starts no pipeline itself. -/
theorem walkable_surplus (ctx : RunContext σ) (k : Int) :
    Walkable ctx (fun _ => True) (fun _ => True) (fun _ => True)
      (fun r : Run σ => r.surplus = k) where
  refusal _ := trivial
  warn _ hr := hr
  retry hr := hr
  resolve _ _ hr := hr
  found _ _ _ _ _ := trivial
  attempt _ hr h := by
    cases h
    exact ⟨fun _ => hr, fun _ _ => trivial⟩
  print _ _ hr := hr
  render _ _ hr := hr
  step hr := hr
  cancelled _ _ := trivial
  exhausted := trivial

namespace Exec

/-- A part of a run takes states with a property to states with another one, unless it is
halted. -/
def Takes (P Q : Run σ → Prop) (m : Exec σ α) : Prop :=
  ∀ r, P r →
    match m.outcome r with
    | (.ok _, r') => Q r'
    | (.error _, _) => True

/-- A run of a pipeline adds itself to the surplus, if those below it add nothing. -/
theorem surplus_runPipeline (ctx : RunContext σ) {notify : String → Value → Exec σ Unit}
    (hnotify : ∀ pool value k, (notify pool value).Keeps (fun _ => True) (·.surplus = k))
    (root : NodeId) (seed : Option Value) (k : Int) :
    (runPipeline ctx notify root seed).Takes (·.surplus = k) (·.surplus = k + 1) := by
  intro r hr
  have hstarted : (r.started (ctx.pipelineOf root) root).surplus = k + 1 := by
    rw [← hr]
    show ((r.metrics.pipelinesRun + 1 : Nat) : Int) - r.metrics.subscriberNotifications =
      r.metrics.pipelinesRun - r.metrics.subscriberNotifications + 1
    omega
  have hwritable : Writable (fun _ => True) (fun r : Run σ => r.surplus = k + 1) :=
    ⟨fun _ hr _ => hr, fun _ _ => trivial, fun _ hr _ => hr⟩
  have hkeeps : Step.Keeps (fun _ => True) (fun _ => True) (·.surplus = k + 1)
      (Step.walk ctx notify ctx.config.maxSteps root {} seed) :=
    Step.keeps_walk (walkable_surplus ctx (k + 1)) RunContext.closed_univ
      (fun _ _ _ value => Step.keeps_writePool hwritable (hnotify _ value (k + 1)) _)
      ctx.config.maxSteps trivial {} seed
  have hwalk := hkeeps _ hstarted
  rw [outcome_runPipeline]
  match hout : (Step.walk ctx notify ctx.config.maxSteps root {} seed).outcome
    (r.started (ctx.pipelineOf root) root) with
  | (.error h, r') => trivial
  | (.ok (.ok value), r') =>
    rw [hout] at hwalk
    exact hwalk
  | (.ok (.error failure), r') =>
    rw [hout] at hwalk
    exact hwalk.1

/-- A notification and the run that follows on it leave the surplus as it was. -/
theorem surplus_notifySubscriber {run : NodeId → Option Value → Exec σ Unit}
    (hrun : ∀ root seed k, (run root seed).Takes (·.surplus = k) (·.surplus = k + 1))
    (value : Value) (s : Subscription) (k : Int) :
    (notifySubscriber run value s).Keeps (fun _ => True) (·.surplus = k) := by
  intro r hr
  have hnotified : r.notified.surplus = k - 1 := by
    rw [← hr]
    show (r.metrics.pipelinesRun : Int) - ((r.metrics.subscriberNotifications + 1 : Nat) : Int) =
      r.metrics.pipelinesRun - r.metrics.subscriberNotifications - 1
    omega
  have htakes := hrun s.root (some value) (k - 1) r.notified hnotified
  rw [Int.sub_add_cancel] at htakes
  exact htakes

theorem surplus_runNested (ctx : RunContext σ) (levels : Nat) (root : NodeId)
    (seed : Option Value) (k : Int) :
    (runNested ctx levels root seed).Takes (·.surplus = k) (·.surplus = k + 1) := by
  induction levels generalizing root seed k with
  | zero =>
    refine surplus_runPipeline ctx (fun pool value k => ?_) root seed k
    exact keeps_forM _ fun s _ => keeps_unlessStopped (keeps_modify fun _ hr => hr)
  | succ levels ih =>
    refine surplus_runPipeline ctx (fun pool value k => ?_) root seed k
    exact keeps_forM _ fun s _ => keeps_unlessStopped (surplus_notifySubscriber ih value s k)

theorem surplus_activate (ctx : RunContext σ) (root : NodeId) (k : Int) :
    (activate ctx root).Takes (·.surplus = k) (·.surplus = k +
      if ctx.config.runLiveSourcesOnce && (ctx.program.node? root).isSome then 1 else 0) := by
  intro r hr
  unfold activate
  match ctx.program.node? root with
  | none =>
    rw [Option.isSome_none, Bool.and_false]
    exact hr.trans (Int.add_zero k).symm
  | some node =>
    have hactivated : (r.activated node.pipeline node.kind.liveLiteral).surplus = k := hr
    rw [Option.isSome_some, Bool.and_true]
    match ctx.config.runLiveSourcesOnce with
    | true => exact surplus_runNested ctx _ root none k _ hactivated
    | false => exact hactivated.trans (Int.add_zero k).symm

-- ============================================================================
-- The phases of a run
-- ============================================================================

/-- The state that a part of a run leaves behind. -/
def after (m : Exec σ α) (r : Run σ) : Run σ :=
  (m.outcome r).2

/-- Of things that are done one after the other unless the run was stopped, those that are
done. -/
def reached (f : α → Exec σ Unit) : List α → Run σ → List α
  | [], _ => []
  | a :: rest, r =>
    if r.stopped then []
    else a ::
      match (f a).outcome r with
      | (.ok _, r') => reached f rest r'
      | (.error _, _) => []

theorem outcome_forM_cons (f : α → Exec σ Unit) (a : α) (rest : List α) (r : Run σ) :
    ((a :: rest).forM fun a => unlessStopped (f a)).outcome r =
      if r.stopped then (rest.forM fun a => unlessStopped (f a)).outcome r
      else
        match (f a).outcome r with
        | (.ok _, r') => (rest.forM fun a => unlessStopped (f a)).outcome r'
        | (.error h, r') => (.error h, r') := by
  show outcome (unlessStopped (f a) >>= fun _ => rest.forM fun a => unlessStopped (f a)) r = _
  rw [outcome_bind, outcome_unlessStopped]
  by_cases hstopped : r.stopped = true
  · rw [if_pos hstopped, if_pos hstopped]
  · rw [if_neg hstopped, if_neg hstopped]
    match (f a).outcome r with
    | (.ok _, _) => rfl
    | (.error _, _) => rfl

/-- The surplus grows with what is done and makes it grow. -/
theorem surplus_forM {f : α → Exec σ Unit} {grows : α → Bool}
    (hf : ∀ a k, (f a).Takes (·.surplus = k) (·.surplus = k + if grows a then 1 else 0))
    (as : List α) (r r' : Run σ)
    (h : (as.forM fun a => unlessStopped (f a)).outcome r = (.ok (), r')) :
    r'.surplus = r.surplus + (reached f as r).countP grows := by
  induction as generalizing r with
  | nil =>
    cases h
    exact (Int.add_zero _).symm
  | cons a rest ih =>
    rw [outcome_forM_cons] at h
    rw [reached]
    split at h
    · next hstopped =>
      -- Of the rest nothing is done either.
      have hnone : reached f rest r = [] := by
        cases rest with
        | nil => rfl
        | cons b rest => rw [reached, if_pos hstopped]
      rw [if_pos hstopped, ← hnone]
      exact ih r h
    · next hrunning =>
      have hstep := hf a r.surplus r rfl
      rw [if_neg hrunning]
      match hout : (f a).outcome r with
      | (.error e, r'') =>
        rw [hout] at h
        cases h
      | (.ok _, r'') =>
        rw [hout] at h hstep
        show r'.surplus = r.surplus + ((a :: reached f rest r'').countP grows : Nat)
        rw [ih r'' h, hstep, List.countP_cons]
        split <;> omega

/-- Everything is done in a run without a cancelled pipeline. -/
theorem reached_eq {f : α → Exec σ Unit}
    (haccounted : ∀ a, (f a).Keeps (fun _ => True) Run.Accounted)
    (hcancelled : ∀ a, (f a).Keeps (fun _ => True) Run.Cancelled) (as : List α) {r r' : Run σ}
    (hr : r.Accounted) (h : (as.forM fun a => unlessStopped (f a)).outcome r = (.ok (), r'))
    (hend : ¬ r'.Cancelled) : reached f as r = as := by
  have hstays : ∀ (rest : List α) {r : Run σ},
      (rest.forM fun a => unlessStopped (f a)).outcome r = (.ok (), r') → ¬ r.Cancelled := by
    intro rest r h hr
    have hkept := keeps_forM rest (fun a _ => keeps_unlessStopped (hcancelled a)) r hr
    rw [h] at hkept
    exact hend hkept
  induction as generalizing r with
  | nil => rfl
  | cons a rest ih =>
    have hrunning : ¬ r.stopped = true := fun hstopped => hstays _ h (hr.stopped hstopped)
    rw [outcome_forM_cons, if_neg hrunning] at h
    rw [reached, if_neg hrunning]
    have hkept := haccounted a r hr
    match hout : (f a).outcome r with
    | (.error e, r'') =>
      rw [hout] at h
      cases h
    | (.ok _, r'') =>
      rw [hout] at h hkept
      exact congrArg (a :: ·) (ih hkept h)

theorem outcome_bind_eq_ok {β : Type} {m : Exec σ α} {f : α → Exec σ β} {r r'' : Run σ} {b : β}
    (h : (m >>= f).outcome r = (.ok b, r'')) :
    ∃ a r', m.outcome r = (.ok a, r') ∧ (f a).outcome r' = (.ok b, r'') := by
  rw [outcome_bind] at h
  match hout : m.outcome r with
  | (.ok a, r') =>
    rw [hout] at h
    exact ⟨a, r', rfl, h⟩
  | (.error e, r') =>
    rw [hout] at h
    cases h

/-- What is kept holds at the end of a part that was not halted. -/
theorem Keeps.ends {inv : Run σ → Prop} {m : Exec σ α} (h : m.Keeps (fun _ => True) inv)
    {r r' : Run σ} {a : α} (hr : inv r) (hout : m.outcome r = (.ok a, r')) : inv r' := by
  have hkept := h r hr
  rw [hout] at hkept
  exact hkept

/-- The roots of finite sources that a run executes. -/
def finiteReached (ctx : RunContext σ) (start : Run σ) : List NodeId :=
  reached (fun root => execute ctx root none) ctx.plan.finiteRoots
    ((preloadImports ctx).after start)

/-- The roots of live sources that a run activates. -/
def liveReached (ctx : RunContext σ) (start : Run σ) : List NodeId :=
  reached (activate ctx) ctx.plan.liveRoots
    ((runFinite ctx).after ((preloadImports ctx).after start))

/-- The roots of live sources that a run executes: those that exist, if the settings say so. -/
def liveExecuted (ctx : RunContext σ) (start : Run σ) : List NodeId :=
  (liveReached ctx start).filter fun root =>
    ctx.config.runLiveSourcesOnce && (ctx.program.node? root).isSome

/-- At the end of its phases a run is ahead of its notifications by the roots that it executed;
without a cancelled pipeline these are all roots. -/
theorem surplus_runAll {ctx : RunContext σ} {initial : PoolStore} {start r : Run σ}
    (hstart : start.Accounted) (hsurplus : start.surplus = 0)
    (h : (runAll ctx initial).outcome start = (.ok (), r)) :
    r.surplus = (finiteReached ctx start).length + (liveExecuted ctx start).length ∧
      (¬ r.Cancelled → finiteReached ctx start = ctx.plan.finiteRoots ∧
        liveReached ctx start = ctx.plan.liveRoots) := by
  obtain ⟨_, loaded, hload, h⟩ := outcome_bind_eq_ok h
  obtain ⟨_, ran, hfinite, h⟩ := outcome_bind_eq_ok h
  obtain ⟨_, live, hlive, hfire⟩ := outcome_bind_eq_ok h
  have hloadedState : (preloadImports ctx).after start = loaded := congrArg Prod.snd hload
  have hranState : (runFinite ctx).after loaded = ran := congrArg Prod.snd hfinite
  unfold finiteReached liveExecuted liveReached
  rw [hloadedState, hranState]
  have haccounted : ∀ root, (execute ctx root none).Keeps (fun _ => True) Run.Accounted :=
    fun root => keeps_runNested (lasting_accounted ctx) trivial _ root none
  have hcancelled : ∀ root seed, (execute ctx root seed).Keeps (fun _ => True) Run.Cancelled :=
    fun root seed => keeps_runNested (lasting_cancelled ctx) trivial _ root seed
  refine ⟨?_, fun hend => ?_⟩
  · have hpreload : (preloadImports ctx).Keeps (fun _ => True) (·.surplus = 0) := by
      refine keeps_forM _ fun i _ => keeps_modify fun r hr => ?_
      split
      · exact hr
      · exact hr
    have hloaded : loaded.surplus = 0 := hpreload.ends hsurplus hload
    have hexecute : ∀ root k, (execute ctx root none).Takes (·.surplus = k)
        (·.surplus = k + if (fun _ : NodeId => true) root then 1 else 0) :=
      fun root k => surplus_runNested ctx _ root none k
    have hran := surplus_forM hexecute _ _ _ hfinite
    have hactivated := surplus_forM (surplus_activate ctx) _ _ _ hlive
    have hfired : (if ctx.config.fireSubscribersOnStart then fireSubscriptions ctx initial
        else pure () : Exec σ Unit).Keeps (fun _ => True) (·.surplus = live.surplus) := by
      split
      · refine keeps_forM _ fun s _ => keeps_unlessStopped ?_
        exact surplus_notifySubscriber (surplus_runNested ctx _) _ s _
      · exact keeps_pure ()
    have hend : r.surplus = live.surplus := hfired.ends rfl hfire
    rw [List.countP_true] at hran
    rw [← List.countP_eq_length_filter]
    omega
  · have hnoting := (lasting_cancelled ctx).toNoting
    have hlive' : ¬ live.Cancelled := by
      intro hl
      refine hend (Keeps.ends ?_ hl hfire)
      split
      · refine keeps_forM _ fun s _ => keeps_unlessStopped ?_
        exact keeps_notifySubscriber hnoting (hcancelled s.root _)
      · exact keeps_pure ()
    have hactivate : ∀ root, (activate ctx root).Keeps (fun _ => True) Run.Cancelled :=
      fun root => keeps_activate hnoting (hcancelled root none)
    have hran' : ¬ ran.Cancelled := fun hr => hlive'
      ((keeps_forM _ fun root _ => keeps_unlessStopped (hactivate root)).ends hr hlive)
    have hloaded : loaded.Accounted :=
      (keeps_preloadImports (lasting_accounted ctx).toNoting).ends hstart hload
    have hran : ran.Accounted :=
      (keeps_forM _ fun root _ => keeps_unlessStopped (haccounted root)).ends hloaded hfinite
    refine ⟨?_, ?_⟩
    · exact reached_eq haccounted (fun root => hcancelled root none) _ hloaded hfinite hran'
    · refine reached_eq (fun root => ?_) hactivate _ hran hlive hlive'
      exact keeps_activate (lasting_accounted ctx).toNoting (haccounted root)

end Exec

-- ============================================================================
-- Reports
-- ============================================================================

theorem Status.ofCounts_length {α β : Type} (warnings : List α) (errors : List β) :
    Status.ofCounts warnings.length errors.length =
      if errors ≠ [] then .ranWithErrors
      else if warnings ≠ [] then .compiledWithWarnings else .clean := by
  unfold Status.ofCounts
  simp only [List.length_pos_iff]

namespace Engine

/-- The counts in the report of a run agree with each other, with the rest of the report and with
what the run did. -/
structure Accounts (engine : Engine σ) (program : Program) (s : σ) (finished : Finished σ) :
    Prop where
  failures : finished.report.errors.length = finished.report.metrics.failedPipelines
  success : finished.report.success = true ↔ finished.report.errors = []
  status : finished.report.status =
    if finished.report.errors ≠ [] then .ranWithErrors
    else if finished.report.warnings ≠ [] then .compiledWithWarnings
    else .clean
  calls : finished.report.metrics.perOperator.total id = finished.report.metrics.operatorCalls
  /-- A host that counts how often its operators are invoked is told the same report, and has
  counted as many invocations as the report says. -/
  invocations : engine.counted.run program (s, 0) =
    .ok { report := finished.report, events := finished.events, channel := finished.channel
          state := (finished.state, finished.report.metrics.operatorCalls) }
  writes : finished.report.pools.total (·.updates) = finished.report.metrics.poolWrites
  /-- A pipeline is run for a root that is executed or for a notification; without a cancelled
  pipeline all roots are reached. -/
  runs : ∃ initial, Exec.initialPools (engine.context program) = .ok initial ∧
    let start := startState (engine.context program) initial s
    finished.report.metrics.pipelinesRun =
        (Exec.finiteReached (engine.context program) start).length +
          (Exec.liveExecuted (engine.context program) start).length +
          finished.report.metrics.subscriberNotifications ∧
      ((∀ f ∈ finished.report.errors, f.cause ≠ .cancelled) →
        Exec.finiteReached (engine.context program) start =
            (engine.context program).plan.finiteRoots ∧
          Exec.liveReached (engine.context program) start =
            (engine.context program).plan.liveRoots)
  values : ∀ pool, finished.report.poolValues.get? pool =
    (finished.report.pools.get? pool).map (·.value)

/-- A run that finished did so at the end of its phases. -/
theorem run_eq_ok {engine : Engine σ} {program : Program} {s : σ} {finished : Finished σ}
    (hrun : engine.run program s = .ok finished) :
    ∃ initial r, Exec.initialPools (engine.context program) = .ok initial ∧
      (Exec.runAll (engine.context program) initial).outcome
        (startState (engine.context program) initial s) = (.ok (), r) ∧
      finished = { report := (finish engine.host r).1, events := r.events.toList
                   channel := r.channel, state := (finish engine.host r).2 } := by
  rw [run_eq] at hrun
  match hinitial : Exec.initialPools (engine.context program) with
  | .error h =>
    rw [hinitial] at hrun
    cases hrun
  | .ok initial =>
    rw [hinitial] at hrun
    simp only at hrun
    match hout : (Exec.runAll (engine.context program) initial).outcome
      (startState (engine.context program) initial s) with
    | (.error h, r) =>
      rw [hout] at hrun
      cases hrun
    | (.ok _, r) =>
      rw [hout] at hrun
      exact ⟨initial, r, rfl, hout, (Except.ok.inj hrun).symm⟩

/-- The accounts of every run are in order, however it went, and where operators return there is
a report to account for. -/
theorem report_accounts (engine : Engine σ) (program : Program) (s : σ) :
    (∀ finished, engine.run program s = .ok finished → engine.Accounts program s finished) ∧
    ∀ P, engine.host.Steady P → engine.host.OperatorsReturn P → P s →
      engine.config.historyCapacity ≤ PoolStore.maxCapacity →
      ∃ finished, engine.run program s = .ok finished := by
  refine ⟨fun finished hrun => ?_, fun P hhost hreturn hs hroom => ?_⟩
  · obtain ⟨initial, r, hinitial, hout, rfl⟩ := run_eq_ok hrun
    have hstart : (startState (engine.context program) initial s).Accounted :=
      .startState (Exec.initialPools_untouched hinitial) s
    have hl := lasting_accounted (engine.context program)
    have hruns : ∀ root seed,
        (Exec.execute (engine.context program) root seed).Keeps (fun _ => True) Run.Accounted :=
      fun root seed => Exec.keeps_runNested hl trivial _ root seed
    have hr : r.Accounted :=
      (Exec.keeps_runAll hl.toNoting initial (fun root _ => hruns root none)
        (fun root _ => hruns root none) fun s _ value => hruns s.root (some value)).ends hstart hout
    obtain ⟨hsurplus, hreached⟩ := Exec.surplus_runAll hstart rfl hout
    constructor
    case failures => exact hr.failures
    case success => exact List.isEmpty_iff
    case status => exact Status.ofCounts_length _ _
    case calls => exact hr.calls
    case invocations => exact run_counted hrun
    case writes => exact hr.writes
    case runs =>
      refine ⟨initial, hinitial, ?_, fun hcauses => hreached ?_⟩
      · show r.metrics.pipelinesRun = _ + _ + r.metrics.subscriberNotifications
        unfold Run.surplus at hsurplus
        omega
      · rintro ⟨f, hf, hcause⟩
        exact hcauses f (Array.mem_toList_iff.2 hf) hcause
    case values => exact Record.get?_mapContents _ _
  · have hwithin := run_within hhost hreturn program hs
    match hrun : engine.run program s with
    | .ok finished => exact ⟨finished, rfl⟩
    | .error halted =>
      rw [hrun] at hwithin
      have hone : 1 ≤ PoolStore.maxCapacity := by decide
      exact absurd hwithin.2 (Nat.not_lt.2 (Nat.max_le.2 ⟨hroom, hone⟩))

/-- A subscriber that fails, and is tried twice each time, a write behind calls below a call, and
a live source. -/
def ledgerSource : String :=
  "p -> abs\n~ [1, 2] | map(\"not\") | to_pool(p)\n~? 3"

/-- Settings with a retry, and a run of each live source. -/
def ledgerConfig : Config :=
  { runLiveSourcesOnce := true, operatorRetries := 1 }

set_option maxRecDepth 4000 in
/-- The subscriber is run for the write and for its start, with two attempts each; `map` is
invoked once and calls twice. On a host whose operators return there is a report as well. -/
theorem ledger_accounts :
    (∃ finished, (Program.parse ledgerSource).runWith ledgerConfig = .ok finished ∧
      finished.report.errors.length = 2 ∧ finished.report.metrics.operatorCalls = 7 ∧
      finished.report.metrics.pipelinesRun = 4 ∧
      (Session.engine ledgerConfig []).Accounts (.parse ledgerSource) (.ofConfig ledgerConfig ())
        finished) ∧
    ∃ finished, Engine.echo.run (.parse ledgerSource) () = .ok finished := by
  refine ⟨?_, ?_⟩
  · have hcounts : (match (Program.parse ledgerSource).runWith ledgerConfig with
        | .ok finished => decide (finished.report.errors.length = 2 ∧
            finished.report.metrics.operatorCalls = 7 ∧
            finished.report.metrics.pipelinesRun = 4)
        | .error _ => false) = true := by decide +kernel
    match hrun : (Program.parse ledgerSource).runWith ledgerConfig with
    | .ok finished =>
      rw [hrun] at hcounts
      obtain ⟨herrors, hcalls, hruns⟩ := of_decide_eq_true hcounts
      exact ⟨finished, rfl, herrors, hcalls, hruns, (report_accounts _ _ _).1 finished hrun⟩
    | .error halted =>
      rw [hrun] at hcounts
      cases hcounts
  · exact (report_accounts Engine.echo (.parse ledgerSource) ()).2 (fun _ => True)
      Host.echo_neverCancelled.toSteady Host.echo_operatorsReturn trivial (by decide)

end Engine

end Sluice
