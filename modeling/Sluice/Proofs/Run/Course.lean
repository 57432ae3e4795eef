/-
  Sluice.Proofs.Run.Course

  A whole run, one step at a time. Once the imports are loaded, all that a run does is to start
  the pipelines of its finite sources, of its live sources and of its subscriptions, in this
  order: its tasks. A course is the machine with the tasks that are left. While the machine has
  frames it takes its steps; when it has none the next task is begun, or passed over if the run
  was stopped.

  The course does what the engine does: from the start of a run it comes to its end, in the state
  on which the engine reports.
-/

import Sluice.Proofs.Run.Accounts

namespace Sluice

variable {σ : Type}

/-- A pipeline that a run starts by itself. -/
inductive Task where
  /-- The pipeline of a finite source. -/
  | finite (root : NodeId)
  /-- A live source, with its pipeline if the settings say so. -/
  | live (root : NodeId)
  /-- A subscription that is run with the initial value of its pool. -/
  | fired (s : Subscription) (value : Value)

namespace Task

/-- Where the pipeline of a task starts. -/
def root : Task → NodeId
  | finite root | live root => root
  | fired s _ => s.root

/-- What a task does. -/
def exec (ctx : RunContext σ) : Task → Exec σ Unit
  | finite root => Exec.execute ctx root none
  | live root => Exec.activate ctx root
  | fired s value => Exec.notifySubscriber (Exec.execute ctx) value s

/-- The tasks of a run, in order. -/
def all (ctx : RunContext σ) (initial : PoolStore) : List Task :=
  ctx.plan.finiteRoots.map finite ++ (ctx.plan.liveRoots.map live ++
    if ctx.config.fireSubscribersOnStart then
      ctx.plan.subscriptions.map fun s => fired s ((initial.value? s.pool).getD .null)
    else [])

end Task

-- ============================================================================
-- One step
-- ============================================================================

/-- A machine without frames. -/
def Machine.idle (r : Run σ) : Machine σ :=
  { frames := [], depth := 0, run := r }

/-- Begin a task. -/
def Task.begin (ctx : RunContext σ) (r : Run σ) : Task → Machine σ
  | finite root => .start ctx root none r
  | live root =>
    match ctx.program.node? root with
    | none => .idle r
    | some node =>
      let activated := r.activated node.pipeline node.kind.liveLiteral
      if ctx.config.runLiveSourcesOnce then .start ctx root none activated else .idle activated
  | fired s value => .start ctx s.root (some value) r.notified

/-- A whole run in the middle: the machine, and the tasks that were not begun yet. -/
structure Course (σ : Type) where
  tasks : List Task
  machine : Machine σ

namespace Course

/-- The state of the run. -/
def run (c : Course σ) : Run σ :=
  c.machine.run

/-- One step, unless everything is at its end. -/
def step (ctx : RunContext σ) (c : Course σ) : Option (Course σ) :=
  match c.machine.step ctx with
  | some machine => some { c with machine }
  | none =>
    match c.machine.halted, c.tasks with
    | none, task :: tasks =>
      -- A run that was stopped begins no more tasks.
      if c.run.stopped then some { c with tasks }
      else some { tasks, machine := task.begin ctx c.run }
    | none, [] | some _, _ => none

/-- Any number of steps. -/
def Steps (ctx : RunContext σ) : Course σ → Course σ → Prop :=
  Relation.ReflTransGen fun c c' => c.step ctx = some c'

/-- A run at its start: the imports are loaded, and nothing was begun. -/
def start (ctx : RunContext σ) (initial : PoolStore) (s : σ) : Course σ where
  tasks := Task.all ctx initial
  machine := .idle ((Exec.preloadImports ctx).after (Engine.startState ctx initial s))

-- ============================================================================
-- The end of a course
-- ============================================================================

variable {ctx : RunContext σ}

/-- The steps of the machine are steps of the course. -/
theorem steps_of_machine {m m' : Machine σ} (h : Machine.Steps ctx m m') (tasks : List Task) :
    Steps ctx ⟨tasks, m⟩ ⟨tasks, m'⟩ := by
  induction h with
  | refl => exact .refl
  | tail _ hstep ih =>
    refine ih.tail ?_
    unfold step
    rw [hstep]

/-- A task comes to its end as its part of the run does. -/
theorem returns_begin (ctx : RunContext σ) (task : Task) (r : Run σ) :
    Machine.Returns ctx (task.begin ctx r) [] 0 ((task.exec ctx).outcome r) := by
  have hruns : ∀ root seed r, Machine.Returns ctx (.start ctx root seed r) [] 0
      ((Exec.execute ctx root seed).outcome r) := by
    intro root seed r
    exact Machine.returns_runNested _ (Nat.zero_add _) root seed [] r
  cases task with
  | finite root => exact hruns root none r
  | fired s value => exact hruns s.root (some value) r.notified
  | live root =>
    unfold Task.begin Task.exec Exec.activate
    simp only
    cases ctx.program.node? root with
    | none => exact .refl
    | some node =>
      simp only
      by_cases honce : ctx.config.runLiveSourcesOnce = true
      · rw [if_pos honce, if_pos honce]
        exact hruns root none _
      · rw [if_neg honce, if_neg honce]
        exact .refl

/-- A course without frames comes to the end of its tasks. -/
theorem ends_of_idle (ctx : RunContext σ) (tasks : List Task) (r : Run σ) :
    ∃ last, Steps ctx ⟨tasks, .idle r⟩ last ∧ last.step ctx = none ∧
      last.machine.outcome =
        (tasks.forM fun task => Exec.unlessStopped (task.exec ctx)).outcome r := by
  induction tasks generalizing r with
  | nil => exact ⟨_, .refl, rfl, rfl⟩
  | cons task tasks ih =>
    rw [Exec.outcome_forM_cons]
    by_cases hstopped : r.stopped = true
    · rw [if_pos hstopped]
      obtain ⟨last, hsteps, hlast⟩ := ih r
      refine ⟨last, hsteps.head ?_, hlast⟩
      show (if r.stopped = true then _ else _ : Option (Course σ)) = _
      rw [if_pos hstopped]
    · rw [if_neg hstopped]
      have hreturns := returns_begin ctx task r
      have hbegin : Course.step ctx ⟨task :: tasks, .idle r⟩ = some ⟨tasks, task.begin ctx r⟩ := by
        show (if r.stopped = true then _ else _ : Option (Course σ)) = _
        rw [if_neg hstopped]
        rfl
      match hout : (task.exec ctx).outcome r with
      | (.ok _, r') =>
        rw [hout] at hreturns
        obtain ⟨last, hsteps, hlast⟩ := ih r'
        exact ⟨last, ((steps_of_machine hreturns tasks).trans hsteps).head hbegin, hlast⟩
      | (.error halt, r') =>
        rw [hout] at hreturns
        obtain ⟨m, hsteps, hhalted, rfl⟩ := hreturns
        refine ⟨⟨tasks, m⟩, (steps_of_machine hsteps tasks).head hbegin, ?_, ?_⟩
        · simp only [step, Machine.step, hhalted]
        · simp only [Machine.outcome, hhalted]

/-- A course goes one way. -/
theorem eq_of_ends {c last last' : Course σ} (h : Steps ctx c last)
    (hlast : last.step ctx = none) (h' : Steps ctx c last') (hlast' : last'.step ctx = none) :
    last = last' := by
  have hunique : Relator.RightUnique fun c c' : Course σ => c.step ctx = some c' := by
    intro a b b' hb hb'
    rw [hb] at hb'
    exact Option.some.inj hb'
  rcases Relation.ReflTransGen.total_of_right_unique hunique h h' with hsteps | hsteps
  · rcases hsteps.cases_head with heq | ⟨next, hnext, -⟩
    · exact heq
    · rw [hlast] at hnext
      cases hnext
  · rcases hsteps.cases_head with heq | ⟨next, hnext, -⟩
    · exact heq.symm
    · rw [hlast'] at hnext
      cases hnext

end Course

-- ============================================================================
-- The course of a run
-- ============================================================================

namespace Exec

/-- Loading imports never halts a run. -/
theorem outcome_preloadImports (ctx : RunContext σ) (r : Run σ) :
    (preloadImports ctx).outcome r = (.ok (), (preloadImports ctx).after r) := by
  have hloads : ∀ (imports : List Import) (f : Import → Run σ → Run σ) (r : Run σ),
      ∃ r', outcome (imports.forM fun i => modify (f i)) r = (.ok (), r') := by
    intro imports f
    induction imports with
    | nil => exact fun r => ⟨r, rfl⟩
    | cons i rest ih => exact fun r => ih (f i r)
  obtain ⟨r', hr'⟩ := hloads ctx.program.imports _ r
  have hout : (preloadImports ctx).outcome r = (.ok (), r') := hr'
  unfold after
  rw [hout]

/-- The phases of a run are its tasks, once the imports are loaded. -/
theorem outcome_runAll (ctx : RunContext σ) (initial : PoolStore) (r : Run σ) :
    (runAll ctx initial).outcome r =
      ((Task.all ctx initial).forM fun task => unlessStopped (task.exec ctx)).outcome
        ((preloadImports ctx).after r) := by
  have hphases : runAll ctx initial = preloadImports ctx >>= fun _ =>
      (Task.all ctx initial).forM fun task => unlessStopped (task.exec ctx) := by
    unfold runAll Task.all
    simp only [List.forM_eq_forM]
    rw [List.forM_append, List.forM_append, List.forM_map, List.forM_map]
    by_cases hfire : ctx.config.fireSubscribersOnStart = true
    · rw [if_pos hfire, if_pos hfire, List.forM_map]
      rfl
    · rw [if_neg hfire, if_neg hfire]
      rfl
  rw [hphases, outcome_bind, outcome_preloadImports]

end Exec

/-- What the engine makes of the outcome of a run. -/
def Engine.conclude (engine : Engine σ) : Except Halt Unit × Run σ → Except Halted (Finished σ)
  | (.ok _, r) =>
    .ok { report := (finish engine.host r).1, events := r.events.toList, channel := r.channel
          state := (finish engine.host r).2 }
  | (.error halt, r) => .error { halt, output := r.output.toList }

/-- The course of a run comes to its end, and the engine reports on what it has come to. -/
theorem Engine.run_eq_course (engine : Engine σ) {program : Program} {initial : PoolStore} (s : σ)
    (hinitial : Exec.initialPools (engine.context program) = .ok initial) :
    ∃ last, Course.Steps (engine.context program)
        (.start (engine.context program) initial s) last ∧
      last.step (engine.context program) = none ∧
      engine.run program s = engine.conclude last.machine.outcome := by
  obtain ⟨last, hsteps, hlast, hout⟩ :=
    Course.ends_of_idle (engine.context program) (Task.all (engine.context program) initial)
      ((Exec.preloadImports (engine.context program)).after
        (startState (engine.context program) initial s))
  refine ⟨last, hsteps, hlast, ?_⟩
  rw [run_eq, hinitial, hout, ← Exec.outcome_runAll]
  simp only
  match (Exec.runAll (engine.context program) initial).outcome
    (startState (engine.context program) initial s) with
  | (.ok _, r) => rfl
  | (.error halt, r) => rfl

end Sluice
