/-
  Sluice.Proofs.Run.Beside

  Two runs of one program that have other things behind them. They have the same pools, and hosts
  that give the same answers, so from there on they do the same: what one of them prints, what
  fails in it and what it warns of, the other does as well, and their pools stay the same. Counts
  and events may differ all along.

  The runs may be those of contexts that start other finite sources. What a run does after its
  imports are its tasks, so such runs are compared task by task.
-/

import Sluice.Proofs.Host.Functional
import Sluice.Proofs.Run.Course

namespace Sluice

variable {σ τ : Type}

-- ============================================================================
-- What a run says
-- ============================================================================

/-- What a run has to say: the lines it printed, its failures and its warnings, in order. -/
@[ext]
structure Log where
  output : List String := []
  errors : List Failure := []
  warnings : List String := []

namespace Log

instance : Append Log :=
  ⟨fun a b => ⟨a.output ++ b.output, a.errors ++ b.errors, a.warnings ++ b.warnings⟩⟩

@[simp] theorem output_append (a b : Log) : (a ++ b).output = a.output ++ b.output := rfl

@[simp] theorem errors_append (a b : Log) : (a ++ b).errors = a.errors ++ b.errors := rfl

@[simp] theorem warnings_append (a b : Log) : (a ++ b).warnings = a.warnings ++ b.warnings := rfl

theorem append_assoc (a b c : Log) : a ++ b ++ c = a ++ (b ++ c) := by
  ext1 <;> simp

theorem append_empty (a : Log) : a ++ {} = a := by
  ext1 <;> simp

end Log

/-- What a run has said so far. -/
def Run.log (r : Run σ) : Log :=
  ⟨r.output.toList, r.errors.toList, r.warnings.toList⟩

/-- What a report says. -/
def Report.log (r : Report) : Log :=
  ⟨r.output, r.errors, r.warnings⟩

/-- What a note adds to what a run says. -/
def Note.log : Note → Log
  | .warned message => { warnings := [message] }
  | .printed _ text => { output := [text] }
  | .failed _ failure => { errors := [failure] }
  | .retried | .rendered .. | .stepped | .started .. | .completed .. | .notified
  | .activated .. => {}

theorem Run.log_note (r : Run σ) (n : Note) : (r.note n).log = r.log ++ n.log := by
  cases n <;> ext1 <;>
    simp [Run.log, Run.note, Note.log, Run.warn, Run.count, Run.emit, Run.printed, Run.stepped,
      Run.started, Run.fail, Run.notified, Run.activated]

/-- A note stops a run if it is that of a cancelled pipeline. -/
theorem Run.stopped_note (r : Run σ) (n : Note) :
    (r.note n).stopped = (r.stopped || n.log.errors.any fun f => f.cause == .cancelled) := by
  cases n <;>
    simp [Run.note, Note.log, Run.warn, Run.count, Run.emit, Run.printed, Run.stepped,
      Run.started, Run.fail, Run.notified, Run.activated]

theorem Run.log_tried (r : Run σ) (line : Nat) (name : String) (calls : Nat)
    (warnings : List String) :
    (r.tried line name calls warnings).log =
      r.log ++ { warnings := warnings.map fun w => s!"line {line}: {w}" } := by
  ext1 <;> simp [Run.log, Run.tried]

-- ============================================================================
-- Runs beside each other
-- ============================================================================

/-- Runs with the same pools, with hosts in some states, and with the same to say since some
moment. -/
structure Run.Beside (P : σ → Prop) (before before' : Log) (r r' : Run σ) : Prop where
  state : P r.state ∧ P r'.state
  pools : r.pools = r'.pools
  stopped : r.stopped = r'.stopped
  told : ∃ told, r.log = before ++ told ∧ r'.log = before' ++ told

namespace Run.Beside

variable {P : σ → Prop} {before before' : Log} {r r' : Run σ}

theorem start {r r' : Run σ} (hstate : P r.state ∧ P r'.state) (hpools : r.pools = r'.pools)
    (hstopped : r.stopped = r'.stopped) : Run.Beside P r.log r'.log r r' :=
  ⟨hstate, hpools, hstopped, {}, (Log.append_empty _).symm, (Log.append_empty _).symm⟩

/-- Whatever both runs say more keeps them beside each other. -/
theorem more (h : Run.Beside P before before' r r') {t t' : Run σ}
    (hstate : P t.state ∧ P t'.state) (hpools : t.pools = t'.pools)
    (hstopped : t.stopped = t'.stopped) {said : Log} (hsaid : t.log = r.log ++ said)
    (hsaid' : t'.log = r'.log ++ said) : Run.Beside P before before' t t' := by
  obtain ⟨told, htold, htold'⟩ := h.told
  refine ⟨hstate, hpools, hstopped, told ++ said, ?_, ?_⟩
  · rw [hsaid, htold, Log.append_assoc]
  · rw [hsaid', htold', Log.append_assoc]

end Run.Beside

namespace Pairing

/-- Runs beside each other; nothing is said of them after a halt. -/
def beside (P : σ → Prop) (before before' : Log) : Pairing σ σ where
  related := Run.Beside P before before'
  halted _ _ := True
  lost _ := False

variable {P : σ → Prop} {before before' : Log}

theorem hosting_beside : (beside P before before').Hosting Eq fun _ s s' => P s ∧ P s' where
  note {r r'} n hr := by
    refine Run.Beside.more hr ?_ ?_ ?_ (r.log_note n) (r'.log_note n)
    · rw [Run.state_note, Run.state_note]
      exact hr.state
    · rw [Run.pools_note, Run.pools_note]
      exact hr.pools
    · rw [Run.stopped_note, Run.stopped_note, hr.stopped]
  stopped hr := hr.stopped.symm
  pools hr := hr.pools
  state hr := hr.state
  moved hr hs := ⟨hs, hr.pools, hr.stopped, hr.told⟩
  tried {r r' s s'} line name calls warnings hr hs :=
    Run.Beside.more hr hs hr.pools hr.stopped (r.log_tried line name calls warnings)
      (r'.log_tried line name calls warnings)
  halted _ _ _ _ _ := trivial

theorem storing_beside : (beside P before before').Storing (fun _ => True) fun _ => True where
  value? _ hr := by rw [hr.pools]
  contains _ hr := by rw [hr.pools]
  make {r r' pool pools} _ hr hensure :=
    ⟨pools, by rw [← hr.pools, hensure], hr.state, rfl, hr.stopped, hr.told⟩
  full _ hr hensure := ⟨by rw [← hr.pools, hensure], trivial⟩
  write {r r' pool} value _ hr _ := by
    refine ⟨hr.state, ?_, hr.stopped, hr.told⟩
    simp only [Run.written, hr.pools]

/-- Runs on a functional host stay beside each other. -/
theorem lasting_beside {ctx : RunContext σ} (hhost : ctx.host.Functional P) :
    (beside P before before').Lasting Eq (fun _ s s' => P s ∧ P s') ctx ctx (fun _ => True)
      (fun _ => True) fun _ => True where
  toHosting := hosting_beside
  toStoring := storing_beside
  same := .refl ctx
  follows := hhost.follows_itself

end Pairing

-- ============================================================================
-- Other finite sources
-- ============================================================================

namespace Pairing

/-- Runs in the same state; nothing is said of them after a halt. -/
def same : Pairing σ σ where
  related := Eq
  halted _ _ := True
  lost _ := False

/-- Runs on one host stay in the same state, wherever their contexts have them start. -/
theorem lasting_same {ctx ctx' : RunContext σ} (hsame : ctx.SameCourse ctx')
    (hhosts : ctx'.host = ctx.host) :
    (same : Pairing σ σ).Lasting Eq (fun _ => Eq) ctx ctx' (fun _ => True) (fun _ => True)
      fun _ => True where
  note n hr := congrArg (Run.note · n) hr
  stopped hr := congrArg Run.stopped hr.symm
  pools hr := congrArg Run.pools hr
  state hr := congrArg Run.state hr
  moved hr hs := by
    cases hr
    cases hs
    rfl
  tried _ _ _ _ hr hs := by
    cases hr
    cases hs
    rfl
  halted _ _ _ _ _ := trivial
  value? _ hr := by rw [hr]
  contains _ hr := by rw [hr]
  make _ hr hensure := by
    cases hr
    exact ⟨_, hensure, rfl⟩
  full _ hr hensure := ⟨by rw [← hr, hensure], trivial⟩
  write value _ hr _ := congrArg (Run.written · _ value) hr
  same := hsame
  follows := by
    rw [hhosts]
    constructor
    case resolve =>
      rintro n s _ name profile - rfl
      match ctx.host.resolve name profile s with
      | (.ok op, t) =>
        refine .found ⟨rfl, fun input args => (op.body input args).staysIn_nowhere, ?_⟩ rfl
        rintro n s _ pools _ depth input args rfl rfl
        match op.invoke (some pools) (ctx.host.caller pools depth) input args s with
        | (result, ⟨t, nested, warnings⟩) => exact .same result nested warnings fun _ => rfl
      | (.error e, t) => exact .missing e rfl
    case record => exact fun name tier success hs => .inl (congrArg _ hs)
    case preload => exact fun library hs => hs ▸ ⟨rfl, rfl⟩
    case isCancelled => exact fun hs => congrArg _ hs.symm
    case steady => exact ctx.host.steady_nowhere

end Pairing

namespace RunContext

/-- A run's surroundings with other finite sources to start. -/
def withRoots (ctx : RunContext σ) (roots : List NodeId) : RunContext σ :=
  { ctx with plan := { ctx.plan with finiteRoots := roots } }

theorem withRoots_eq_self {ctx : RunContext σ} {roots : List NodeId}
    (h : ctx.plan.finiteRoots = roots) : ctx.withRoots roots = ctx := by
  subst h
  rfl

/-- The engine that a run is one of. -/
def engine (ctx : RunContext σ) : Engine σ :=
  { host := ctx.host, config := ctx.config, channel := ctx.channel, json := ctx.json }

/-- Run a program in given surroundings. -/
def run (ctx : RunContext σ) (s : σ) : Except Engine.Halted (Engine.Finished σ) :=
  match Exec.initialPools ctx with
  | .error halt => .error { halt, output := [] }
  | .ok initial =>
    ctx.engine.conclude ((Exec.runAll ctx initial).outcome (Engine.startState ctx initial s))

end RunContext

/-- An engine runs a program in the surroundings it makes for it. -/
theorem Engine.run_eq_context (engine : Engine σ) (program : Program) (s : σ) :
    engine.run program s = (engine.context program).run s := by
  rw [run_eq]
  unfold RunContext.run
  match Exec.initialPools (engine.context program) with
  | .error halt => rfl
  | .ok initial =>
    simp only
    match (Exec.runAll (engine.context program) initial).outcome
      (startState (engine.context program) initial s) with
    | (.ok _, r) => rfl
    | (.error halt, r) => rfl

namespace Task

/-- Do tasks one after the other, unless the run was stopped. -/
def runEach (ctx : RunContext σ) (tasks : List Task) : Exec σ Unit :=
  tasks.forM fun task => Exec.unlessStopped (task.exec ctx)

/-- The tasks that come after the finite sources. -/
def later (ctx : RunContext σ) (initial : PoolStore) : List Task :=
  ctx.plan.liveRoots.map live ++
    if ctx.config.fireSubscribersOnStart then
      ctx.plan.subscriptions.map fun s => fired s ((initial.value? s.pool).getD .null)
    else []

theorem outcome_runEach_append (ctx : RunContext σ) (first rest : List Task) (r : Run σ) :
    (runEach ctx (first ++ rest)).outcome r =
      match (runEach ctx first).outcome r with
      | (.ok _, r') => (runEach ctx rest).outcome r'
      | (.error h, r') => (.error h, r') := by
  have happend : runEach ctx (first ++ rest) = runEach ctx first >>= fun _ => runEach ctx rest :=
    List.forM_append
  rw [happend, Exec.outcome_bind]
  match (runEach ctx first).outcome r with
  | (.ok _, r') => rfl
  | (.error h, r') => rfl

/-- Tasks that come to their end do so one part after the other. -/
theorem runEach_append_ok {ctx : RunContext σ} {first rest : List Task} {r r₂ : Run σ} :
    (runEach ctx (first ++ rest)).outcome r = (.ok (), r₂) ↔
      ∃ r₁, (runEach ctx first).outcome r = (.ok (), r₁) ∧
        (runEach ctx rest).outcome r₁ = (.ok (), r₂) := by
  rw [outcome_runEach_append]
  match (runEach ctx first).outcome r with
  | (.ok _, r₁) =>
    refine ⟨fun h => ⟨r₁, rfl, h⟩, ?_⟩
    rintro ⟨_, hfirst, hrest⟩
    cases hfirst
    exact hrest
  | (.error h, r₁) =>
    constructor
    · intro h
      cases h
    · rintro ⟨_, hfirst, -⟩
      cases hfirst

/-- Tasks keep a pairing that survives whatever runs do. -/
theorem tandem_runEach {p : Pairing σ τ} {agree : PoolStore → PoolStore → Prop}
    {S : Nat → σ → τ → Prop} {ctx : RunContext σ} {ctx' : RunContext τ}
    (hl : p.Lasting agree S ctx ctx' (fun _ => True) (fun _ => True) fun _ => True)
    (tasks : List Task) : (runEach ctx tasks).Tandem p (runEach ctx' tasks) := by
  have hexecute : ∀ root seed,
      (Exec.execute ctx root seed).Tandem p (Exec.execute ctx' root seed) :=
    fun root seed => Exec.tandem_execute hl ctx.territory_univ trivial seed
  refine Exec.tandem_forM _ fun task _ => Exec.tandem_unlessStopped hl ?_
  cases task with
  | finite root => exact hexecute root none
  | live root => exact Exec.tandem_activate hl (hexecute root none)
  | fired s value => exact Exec.tandem_notifySubscriber hl (hexecute s.root (some value))

end Task

namespace RunContext

/-- The state of a run whose imports are loaded. -/
def loaded (ctx : RunContext σ) (initial : PoolStore) (s : σ) : Run σ :=
  (Exec.preloadImports ctx).after (Engine.startState ctx initial s)

/-- The state of a run when the pipelines of some finite sources have run. -/
def afterRoots (ctx : RunContext σ) (initial : PoolStore) (s : σ) (roots : List NodeId) : Run σ :=
  (Task.runEach ctx (roots.map .finite)).after (ctx.loaded initial s)

/-- A run is its tasks, once its imports are loaded. -/
theorem run_eq_tasks {ctx : RunContext σ} {initial : PoolStore}
    (h : Exec.initialPools ctx = .ok initial) (s : σ) :
    ctx.run s = ctx.engine.conclude
      ((Task.runEach ctx (ctx.plan.finiteRoots.map .finite ++ Task.later ctx initial)).outcome
        (ctx.loaded initial s)) := by
  unfold run
  rw [h]
  simp only
  rw [Exec.outcome_runAll]
  rfl

/-- A run that finished reports on the state at the end of its tasks. -/
theorem run_eq_ok {ctx : RunContext σ} {s : σ} {finished : Engine.Finished σ}
    (h : ctx.run s = .ok finished) :
    ∃ initial r, Exec.initialPools ctx = .ok initial ∧
      (Task.runEach ctx (ctx.plan.finiteRoots.map .finite ++ Task.later ctx initial)).outcome
        (ctx.loaded initial s) = (.ok (), r) ∧
      finished.report = (Engine.finish ctx.host r).1 := by
  match hinitial : Exec.initialPools ctx with
  | .error halt =>
    unfold run at h
    rw [hinitial] at h
    cases h
  | .ok initial =>
    rw [run_eq_tasks hinitial] at h
    refine ⟨initial, ?_⟩
    match hout : (Task.runEach ctx (ctx.plan.finiteRoots.map .finite ++
      Task.later ctx initial)).outcome (ctx.loaded initial s) with
    | (.ok _, r) =>
      rw [hout] at h
      cases h
      exact ⟨r, rfl, hout, rfl⟩
    | (.error halt, r) =>
      rw [hout] at h
      cases h

/-- Where the finite sources start is nothing to a task. -/
theorem runEach_withRoots {ctx : RunContext σ} {roots : List NodeId} {tasks : List Task}
    {r t : Run σ} :
    (Task.runEach (ctx.withRoots roots) tasks).outcome r = (.ok (), t) ↔
      (Task.runEach ctx tasks).outcome r = (.ok (), t) := by
  have hof : ∀ {ctx ctx' : RunContext σ}, ctx.SameCourse ctx' → ctx'.host = ctx.host →
      (Task.runEach ctx tasks).outcome r = (.ok (), t) →
      (Task.runEach ctx' tasks).outcome r = (.ok (), t) := by
    intro ctx ctx' hsame hhosts hout
    obtain ⟨_, hout', rfl⟩ := (Task.tandem_runEach (Pairing.lasting_same hsame hhosts) tasks).of_ok
      (fun _ h => h) rfl hout
    exact hout'
  exact ⟨hof ⟨rfl, rfl, rfl, fun _ _ => rfl, fun _ => rfl, fun _ => rfl⟩ rfl,
    hof ⟨rfl, rfl, rfl, fun _ _ => rfl, fun _ => rfl, fun _ => rfl⟩ rfl⟩

/-- A run that finishes, in parts: some finite sources, others after them, and the rest. -/
theorem run_withRoots_ok {ctx : RunContext σ} {pre mid post : List NodeId} {s : σ}
    {report : Report} :
    (∃ finished, (ctx.withRoots (pre ++ mid ++ post)).run s = .ok finished ∧
      finished.report = report) ↔
    ∃ initial r t u, Exec.initialPools ctx = .ok initial ∧
      (Task.runEach ctx (pre.map .finite)).outcome (ctx.loaded initial s) = (.ok (), r) ∧
      (Task.runEach ctx (mid.map .finite)).outcome r = (.ok (), t) ∧
      (Task.runEach ctx (post.map .finite ++ Task.later ctx initial)).outcome t = (.ok (), u) ∧
      (Engine.finish ctx.host u).1 = report := by
  have hparts : ∀ initial u, (Task.runEach (ctx.withRoots (pre ++ mid ++ post))
        ((pre ++ mid ++ post).map .finite ++ Task.later ctx initial)).outcome
        (ctx.loaded initial s) = (.ok (), u) ↔
      ∃ r, (Task.runEach ctx (pre.map .finite)).outcome (ctx.loaded initial s) = (.ok (), r) ∧
        ∃ t, (Task.runEach ctx (mid.map .finite)).outcome r = (.ok (), t) ∧
          (Task.runEach ctx (post.map .finite ++ Task.later ctx initial)).outcome t =
            (.ok (), u) := by
    intro initial u
    rw [runEach_withRoots, List.map_append, List.map_append, List.append_assoc, List.append_assoc,
      Task.runEach_append_ok]
    simp only [Task.runEach_append_ok]
  constructor
  · rintro ⟨finished, hrun, rfl⟩
    obtain ⟨initial, u, hinitial, hout, hreport⟩ := run_eq_ok hrun
    obtain ⟨r, hpre, t, hmid, hpost⟩ := (hparts initial u).1 hout
    exact ⟨initial, r, t, u, hinitial, hpre, hmid, hpost, hreport.symm⟩
  · rintro ⟨initial, r, t, u, hinitial, hpre, hmid, hpost, hreport⟩
    have hout := (hparts initial u).2 ⟨r, hpre, t, hmid, hpost⟩
    have hinitial' : Exec.initialPools (ctx.withRoots (pre ++ mid ++ post)) = .ok initial :=
      hinitial
    have hrun := (run_eq_tasks hinitial' s).trans
      (congrArg ctx.engine.conclude hout)
    exact ⟨_, hrun, hreport⟩

end RunContext

-- ============================================================================
-- The rest of a run
-- ============================================================================

/-- What a report says is what the run has said, and then the warnings of its host. -/
theorem Engine.log_finish (host : Host σ) (r : Run σ) :
    (finish host r).1.log = r.log ++ { warnings := (host.drainWarnings r.state).1 } := by
  ext1 <;> simp [finish, Report.finalize, Report.log, Run.log]

/-- Runs that stand beside each other come to the same pools with the same tasks, and from there
on their reports say the same. -/
theorem RunContext.finish_beside {ctx : RunContext σ} {P : σ → Prop}
    (hhost : ctx.host.Functional P) {t t' u : Run σ} (ht : Run.Beside P t.log t'.log t t')
    {tasks : List Task} (hout : (Task.runEach ctx tasks).outcome t = (.ok (), u)) :
    ∃ u' rest, (Task.runEach ctx tasks).outcome t' = (.ok (), u') ∧
      (Engine.finish ctx.host u').1.pools = (Engine.finish ctx.host u).1.pools ∧
      (Engine.finish ctx.host u).1.log = t.log ++ rest ∧
      (Engine.finish ctx.host u').1.log = t'.log ++ rest := by
  obtain ⟨u', hout', hu⟩ :=
    (Task.tandem_runEach (Pairing.lasting_beside hhost) tasks).of_ok (fun _ h => h) ht hout
  obtain ⟨told, htold, htold'⟩ := hu.told
  refine ⟨u', told ++ { warnings := (ctx.host.drainWarnings u.state).1 }, hout', ?_, ?_, ?_⟩
  · exact congrArg PoolStore.pools hu.pools.symm
  · rw [Engine.log_finish, htold, Log.append_assoc]
  · rw [Engine.log_finish, htold', hhost.warnings_eq hu.state.1 hu.state.2, Log.append_assoc]

-- ============================================================================
-- Runs that nobody stops
-- ============================================================================

/-- A run that was not stopped, with its host in some states and its pools in order. -/
structure Run.Running (P : σ → Prop) (r : Run σ) : Prop where
  state : P r.state
  stopped : r.stopped = false
  ordered : r.pools.pools.Ordered

/-- On a host that is never cancelled no run is stopped. -/
theorem lasting_running {ctx : RunContext σ} {P : σ → Prop} (hhost : ctx.host.NeverCancelled P) :
    Lasting ctx (Operator.StaysIn P) (· ≠ .cancelled) (fun _ => True) (Run.Running P) where
  refusal e h := by cases e <;> cases h
  warn _ hr := ⟨hr.state, hr.stopped, hr.ordered⟩
  retry hr := ⟨hr.state, hr.stopped, hr.ordered⟩
  resolve name profile hr := ⟨hhost.resolve name profile _ hr.state, hr.stopped, hr.ordered⟩
  found name profile op hr h := hhost.found name profile _ op hr.state h
  attempt {r r' node op name depth input args result} hop hr h := by
    cases h
    have hstate := hhost.invoke_state hop r.pools depth input args r.state hr.state
    exact ⟨fun _ => ⟨hhost.record name op.tier _ _ hstate, hr.stopped, hr.ordered⟩,
      fun _ _ => trivial⟩
  print _ _ hr := ⟨hr.state, hr.stopped, hr.ordered⟩
  render _ _ hr := ⟨hr.state, hr.stopped, hr.ordered⟩
  step hr := ⟨hr.state, hr.stopped, hr.ordered⟩
  cancelled {r} hr hcancelled := by
    rw [hhost.running r.state hr.state] at hcancelled
    cases hcancelled
  exhausted h := by cases h
  start _ _ hr := ⟨hr.state, hr.stopped, hr.ordered⟩
  complete _ _ hr := ⟨hr.state, hr.stopped, hr.ordered⟩
  fail {r} pipeline failure hr hcause := by
    refine ⟨hr.state, ?_, hr.ordered⟩
    show (r.stopped || failure.cause == .cancelled) = false
    rw [hr.stopped, Bool.false_or]
    exact beq_eq_false_iff_ne.2 hcause
  make _ hr hensure :=
    ⟨hr.state, hr.stopped, (PoolStore.totalUpdates_ensure hr.ordered hensure).1⟩
  full _ _ := trivial
  write value hr hcontains :=
    ⟨hr.state, hr.stopped, (PoolStore.totalUpdates_write hr.ordered hcontains value).1⟩
  notify hr := ⟨hr.state, hr.stopped, hr.ordered⟩
  activate _ _ hr := ⟨hr.state, hr.stopped, hr.ordered⟩
  preload library hr := ⟨hhost.preload library _ hr.state, hr.stopped, hr.ordered⟩

namespace RunContext

variable {ctx : RunContext σ} {P : σ → Prop}

/-- Pipelines leave a run running. -/
theorem keeps_running (hhost : ctx.host.NeverCancelled P) (root : NodeId) (seed : Option Value) :
    (Exec.execute ctx root seed).Keeps (fun _ => True) (Run.Running P) :=
  Exec.keeps_runNested (lasting_running hhost) (fun h => by cases h) _ root seed

theorem running_loaded (hhost : ctx.host.NeverCancelled P) {initial : PoolStore}
    (hinitial : Exec.initialPools ctx = .ok initial) {s : σ} (hs : P s) :
    (ctx.loaded initial s).Running P := by
  have hstart : (Engine.startState ctx initial s).Running P :=
    ⟨hs, rfl, (Exec.initialPools_untouched hinitial).ordered⟩
  have hkept := Exec.keeps_preloadImports (lasting_running hhost).toNoting _ hstart
  rw [Exec.outcome_preloadImports] at hkept
  exact hkept

/-- The finite sources leave a run running. -/
theorem running_of_runEach (hhost : ctx.host.NeverCancelled P) {roots : List NodeId}
    {r r' : Run σ} (hr : r.Running P)
    (h : (Task.runEach ctx (roots.map .finite)).outcome r = (.ok (), r')) : r'.Running P := by
  have hkeeps : (Task.runEach ctx (roots.map .finite)).Keeps (fun _ => True) (Run.Running P) := by
    refine Exec.keeps_forM _ fun task htask => Exec.keeps_unlessStopped ?_
    obtain ⟨root, -, rfl⟩ := List.mem_map.1 htask
    exact keeps_running hhost root none
  have hkept := hkeeps r hr
  rw [h] at hkept
  exact hkept

end RunContext

end Sluice
