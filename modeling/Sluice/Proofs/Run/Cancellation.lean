/-
  Sluice.Proofs.Run.Cancellation

  A cancelled run is frozen. The token is looked at in one place only, where a walk arrives at a
  node; that the run was stopped is looked at before each subscriber and each task. Between the
  two a run may still start one pipeline, which fails where it arrives first.

  What a step of the machine can do is said once, by `Move`. The rest is by cases over it. Below
  the innermost frame every walk is at its end, because a pool write ends its pipeline: so once the
  run is stopped there is no node left to arrive at, and the frames complete one by one.
-/

import Sluice.Proofs.Program.Terminal
import Sluice.Proofs.Run.Course
import Sluice.Proofs.Walk.Forward

namespace Sluice

variable {σ : Type}

-- ============================================================================
-- The run of a node
-- ============================================================================

/-- The errors of a run that say that it was cancelled. -/
def Run.cancellations (r : Run σ) : Nat :=
  r.errors.countP fun failure => failure.cause == .cancelled

/-- What no node changes when it runs. -/
structure Run.Still (r r' : Run σ) : Prop where
  errors : r'.errors = r.errors
  stopped : r'.stopped = r.stopped
  steps : r'.metrics.steps = r.metrics.steps
  pipelines : r'.metrics.pipelinesRun = r.metrics.pipelinesRun

/-- A node that writes no pool leaves the pools alone, and never fails as cancelled. -/
theorem showing_still (ctx : RunContext σ) (base : Run σ) :
    Showing ctx (fun _ => True) (· ≠ .cancelled) (fun _ => True)
      (fun r => base.Still r ∧ r.pools = base.pools) where
  refusal e := by cases e <;> simp [Cause.ofRefusal]
  warn _ hr := ⟨⟨hr.1.errors, hr.1.stopped, hr.1.steps, hr.1.pipelines⟩, hr.2⟩
  retry hr := ⟨⟨hr.1.errors, hr.1.stopped, hr.1.steps, hr.1.pipelines⟩, hr.2⟩
  resolve _ _ hr := ⟨⟨hr.1.errors, hr.1.stopped, hr.1.steps, hr.1.pipelines⟩, hr.2⟩
  found _ _ _ _ _ := trivial
  attempt _ hr h := by
    cases h
    exact ⟨fun _ => ⟨⟨hr.1.errors, hr.1.stopped, hr.1.steps, hr.1.pipelines⟩, hr.2⟩,
      fun _ _ => trivial⟩
  print _ _ hr := ⟨⟨hr.1.errors, hr.1.stopped, hr.1.steps, hr.1.pipelines⟩, hr.2⟩
  render _ _ hr := ⟨⟨hr.1.errors, hr.1.stopped, hr.1.steps, hr.1.pipelines⟩, hr.2⟩

/-- A write leaves the host alone. -/
theorem writable_still (base : Run σ) :
    Writable (fun _ => True) (fun r => base.Still r ∧ r.state = base.state) where
  make _ hr _ := ⟨⟨hr.1.errors, hr.1.stopped, hr.1.steps, hr.1.pipelines⟩, hr.2⟩
  full _ _ := trivial
  write _ hr _ := ⟨⟨hr.1.errors, hr.1.stopped, hr.1.steps, hr.1.pipelines⟩, hr.2⟩

theorem Step.Ends.imp {α : Type} {causes : Cause → Prop} {halts : Halt → Prop}
    {inv inv' : Run σ → Prop} {out : Except Halt (Except Failure α) × Run σ}
    (h : Ends causes halts inv out) (himp : ∀ r, inv r → inv' r) :
    Ends causes halts inv' out := by
  match out with
  | (.ok (.ok _), r) => exact himp r h
  | (.ok (.error f), r) => exact ⟨himp r h.1, h.2⟩
  | (.error _, _) => exact h

/-- No node changes both the pools and the host, and none fails as cancelled. -/
theorem Step.ends_runNode (ctx : RunContext σ) (node : Node) (packet : Packet)
    (seed : Option Value) (r : Run σ) :
    Ends (· ≠ .cancelled) (fun _ => True)
      (fun r' => r.Still r' ∧ (r'.pools = r.pools ∨ r'.state = r.state))
      ((runNode ctx (fun _ _ => pure ()) node packet seed).outcome r) := by
  have hstart : r.Still r := ⟨rfl, rfl, rfl, rfl⟩
  by_cases hwrite : ∃ pool, node.kind = .poolWrite pool
  · obtain ⟨pool, hkind⟩ := hwrite
    have hkeeps : Keeps (· ≠ .cancelled) (fun _ => True)
        (fun r' => r.Still r' ∧ r'.state = r.state)
        (writePool (fun _ _ => pure ()) node pool packet.value >>= fun _ =>
          pure (Flow.next packet)) :=
      keeps_bind (keeps_writePool (writable_still r) (Exec.keeps_pure ()) node) fun _ =>
        keeps_pure (Flow.next packet)
    unfold runNode
    rw [hkind]
    exact (hkeeps r ⟨hstart, rfl⟩).imp fun _ hr => ⟨hr.1, .inr hr.2⟩
  · have hkeeps : Keeps (· ≠ .cancelled) (fun _ => True)
        (fun r' => r.Still r' ∧ r'.pools = r.pools)
        (runNode ctx (fun _ _ => pure ()) node packet seed) :=
      keeps_runNode (showing_still ctx r) seed fun pool hkind => absurd ⟨pool, hkind⟩ hwrite
    exact (hkeeps r ⟨hstart, rfl⟩).imp fun _ hr => ⟨hr.1, .inl hr.2⟩

-- ============================================================================
-- Moves
-- ============================================================================

/-- Pipelines start at nodes, and a pool write ends its pipeline. -/
structure RunContext.Tidy (ctx : RunContext σ) : Prop where
  finite : ∀ root ∈ ctx.plan.finiteRoots, ∃ node, ctx.program.node? root = some node
  live : ∀ root ∈ ctx.plan.liveRoots, ∃ node, ctx.program.node? root = some node
  subscribed : ∀ s ∈ ctx.plan.subscriptions, ∃ node, ctx.program.node? s.root = some node
  writesLast : ∀ {id node pool}, ctx.program.node? id = some node →
    node.kind = .poolWrite pool → node.terminal = true

namespace Machine

/-- What a step of the machine can do. -/
inductive Move (ctx : RunContext σ) : Machine σ → Machine σ → Prop where
  /-- A walk that has nowhere to go completes. -/
  | completes {pipeline position packet seed steps rest depth r} :
    (∀ id, position = some id → ctx.program.node? id = none) →
    Move ctx { frames := .walk pipeline position packet seed steps :: rest, depth, run := r }
      { frames := rest, depth, run := r.emit (.completed pipeline packet.value) }
  /-- A walk arrives at a node and finds the token set. -/
  | cancels {pipeline id packet seed steps rest depth r failure} :
    ctx.host.isCancelled r.state = true → failure.cause = .cancelled →
    Move ctx { frames := .walk pipeline (some id) packet seed steps :: rest, depth, run := r }
      { frames := rest, depth, run := r.fail pipeline failure }
  /-- A walk fails at a node. -/
  | fails {pipeline position packet seed steps rest depth r r' failure} :
    ctx.host.isCancelled r.state = false → r.stepped.Still r' →
    r'.pools = r.pools ∨ r'.state = r.state → failure.cause ≠ .cancelled →
    Move ctx { frames := .walk pipeline position packet seed steps :: rest, depth, run := r }
      { frames := rest, depth, run := r'.fail pipeline failure }
  /-- The run is halted at a node. -/
  | halts {pipeline position packet seed steps rest depth r r' halt} :
    ctx.host.isCancelled r.state = false →
    Move ctx { frames := .walk pipeline position packet seed steps :: rest, depth, run := r }
      { frames := .walk pipeline position packet seed steps :: rest, depth, run := r'
        halted := some halt }
  /-- A walk runs a node and goes on. -/
  | goes {pipeline position position' packet packet' seed seed' steps steps' rest depth r r'} :
    ctx.host.isCancelled r.state = false → r.stepped.Still r' →
    r'.pools = r.pools ∨ r'.state = r.state →
    Move ctx { frames := .walk pipeline position packet seed steps :: rest, depth, run := r }
      { frames := .walk pipeline position' packet' seed' steps' :: rest, depth, run := r' }
  /-- A walk writes a pool, which ends it, and the subscribers are to be told. -/
  | writes {pipeline position packet packet' seed seed' steps steps' rest depth r r' pool value
      subscriptions} :
    ctx.host.isCancelled r.state = false → r.stepped.Still r' →
    r'.pools = r.pools ∨ r'.state = r.state →
    (∀ s ∈ subscriptions, s ∈ ctx.plan.subscriptions) →
    Move ctx { frames := .walk pipeline position packet seed steps :: rest, depth, run := r }
      { frames := .fan pool value subscriptions ::
          .walk pipeline none packet' seed' steps' :: rest
        depth := depth + 1, run := r' }
  /-- All subscribers of a write were told. -/
  | told {pool value rest depth r} :
    Move ctx { frames := .fan pool value [] :: rest, depth, run := r }
      { frames := rest, depth := depth - 1, run := r }
  /-- A run that was stopped tells no more subscribers. -/
  | silenced {pool value subscriptions rest depth r} :
    r.stopped = true →
    Move ctx { frames := .fan pool value subscriptions :: rest, depth, run := r }
      { frames := .fan pool value [] :: rest, depth, run := r }
  /-- A subscriber is refused. -/
  | refused {pool value s others rest depth r failure} :
    r.stopped = false → failure.cause ≠ .cancelled →
    Move ctx { frames := .fan pool value (s :: others) :: rest, depth, run := r }
      { frames := .fan pool value others :: rest, depth, run := r.fail s.pipeline failure }
  /-- A subscriber is run. -/
  | tells {pool value s others rest depth r} :
    r.stopped = false →
    Move ctx { frames := .fan pool value (s :: others) :: rest, depth, run := r }
      (enter ctx s.root (some value)
        { frames := .fan pool value others :: rest, depth, run := r.notified })

variable {ctx : RunContext σ}

/-- A pool write that ends its pipeline leads nowhere. -/
theorem onward?_of_write {id : NodeId} {node : Node} {packet : Packet} {seed : Option Value}
    {flow : Flow} {pool : String} {r r' : Run σ}
    (hrun : (Step.runNode ctx (fun _ _ => pure ()) node packet seed).outcome r =
      (.ok (.ok flow), r'))
    (hkind : node.kind = .poolWrite pool) (hterminal : node.terminal = true) :
    Visit.onward? ctx.plan ⟨id, node, packet, some flow⟩ = none := by
  have hlawful : Visit.Lawful ctx.plan ⟨id, node, packet, some flow⟩ :=
    Step.returns_runNode _ _ _ hrun
  unfold Visit.Lawful at hlawful
  simp only [hkind] at hlawful
  obtain ⟨value, rfl⟩ := hlawful flow rfl
  simp only [Visit.onward?, hterminal, if_true]

theorem move_of_stepWalk (htidy : ctx.Tidy) (pipeline : PipelineId) (position : Option NodeId)
    (packet : Packet) (seed : Option Value) (steps : Nat) (rest : List Frame) (depth : Nat)
    (r : Run σ) :
    Move ctx { frames := .walk pipeline position packet seed steps :: rest, depth, run := r }
      (stepWalk ctx pipeline position packet seed steps rest depth r) := by
  cases position with
  | none => exact .completes fun id hid => by cases hid
  | some id =>
    unfold stepWalk
    simp only
    rw [Step.outcome_arrive]
    match hnode : ctx.program.node? id with
    | none =>
      refine .completes fun id' hid => ?_
      cases hid
      exact hnode
    | some node =>
      match hcancelled : ctx.host.isCancelled r.state with
      | true => exact .cancels hcancelled rfl
      | false =>
        simp only [Bool.false_eq_true, if_false]
        split
        · refine .fails hcancelled ⟨rfl, rfl, rfl, rfl⟩ (.inl rfl) ?_
          simp
        · have hends := Step.ends_runNode ctx node packet seed r.stepped
          match hrun : (Step.runNode ctx (fun _ _ => pure ()) node packet seed).outcome
            r.stepped with
          | (.error halt, r') => exact .halts hcancelled
          | (.ok (.error failure), r') =>
            rw [hrun] at hends
            exact .fails hcancelled hends.1.1 hends.1.2 hends.2
          | (.ok (.ok flow), r') =>
            rw [hrun] at hends
            simp only
            unfold notifyFrom
            split
            · next pool hkind =>
              -- The pipeline that wrote is at its end.
              rw [onward?_of_write hrun hkind (htidy.writesLast hnode hkind)]
              unfold notify
              split
              · exact .goes hcancelled hends.1 hends.2
              · refine .writes hcancelled hends.1 hends.2 fun s hs => ?_
                exact (List.mem_filter.1 hs).1
            · exact .goes hcancelled hends.1 hends.2

theorem move_of_stepFan (pool : String) (value : Value) (subscriptions : List Subscription)
    (rest : List Frame) (depth : Nat) (r : Run σ) :
    Move ctx { frames := .fan pool value subscriptions :: rest, depth, run := r }
      (stepFan ctx pool value subscriptions rest depth r) := by
  cases subscriptions with
  | nil => exact .told
  | cons s others =>
    unfold stepFan
    simp only
    split
    · next hstopped => exact .silenced hstopped
    · next hrunning =>
      have hrunning := Bool.eq_false_iff.2 hrunning
      split
      · exact .refused hrunning (by simp)
      · exact .tells hrunning

/-- Every step of the machine is one of its moves. -/
theorem move_of_step (htidy : ctx.Tidy) {m m' : Machine σ} (h : m.step ctx = some m') :
    Move ctx m m' := by
  obtain ⟨frames, depth, r, halted⟩ := m
  cases halted with
  | some halt => cases h
  | none =>
    cases frames with
    | nil => cases h
    | cons frame rest =>
      cases frame with
      | walk pipeline position packet seed steps =>
        cases h
        exact move_of_stepWalk htidy pipeline position packet seed steps rest depth r
      | fan pool value subscriptions =>
        cases h
        exact move_of_stepFan pool value subscriptions rest depth r

end Machine

-- ============================================================================
-- Frames of a run that was stopped
-- ============================================================================

namespace Frame

/-- A frame that arrives at no node any more. -/
def Resting : Frame → Prop
  | walk _ position _ _ _ => position = none
  | fan .. => True

/-- The subscriptions of a write are those of the plan. -/
def Planned (ctx : RunContext σ) : Frame → Prop
  | walk .. => True
  | fan _ _ subscriptions => ∀ s ∈ subscriptions, s ∈ ctx.plan.subscriptions

end Frame

/-- The state in which frames leave a run when they complete, the innermost first. -/
def Run.unwound (r : Run σ) : List Frame → Run σ
  | [] => r
  | .walk pipeline _ packet _ _ :: rest => (r.emit (.completed pipeline packet.value)).unwound rest
  | .fan .. :: rest => r.unwound rest

theorem Run.cancellations_fail_of_ne {r : Run σ} {failure : Failure}
    (h : failure.cause ≠ .cancelled) (pipeline : PipelineId) :
    (r.fail pipeline failure).cancellations = r.cancellations ∧
      (r.fail pipeline failure).stopped = r.stopped := by
  have hcause : (failure.cause == Cause.cancelled) = false := beq_eq_false_iff_ne.2 h
  constructor
  · show (r.errors.push failure).countP _ = _
    rw [Array.countP_push, hcause]
    rfl
  · show (r.stopped || _) = _
    rw [hcause, Bool.or_false]

theorem Run.cancellations_fail {r : Run σ} {failure : Failure} (h : failure.cause = .cancelled)
    (pipeline : PipelineId) :
    (r.fail pipeline failure).cancellations = r.cancellations + 1 ∧
      (r.fail pipeline failure).stopped = true := by
  have hcause : (failure.cause == Cause.cancelled) = true := beq_iff_eq.2 h
  constructor
  · show (r.errors.push failure).countP _ = _
    rw [Array.countP_push, hcause]
    rfl
  · show (r.stopped || _) = true
    rw [hcause, Bool.or_true]

namespace Machine

/-- What holds of the machine of a run that was not halted. -/
structure Orderly (ctx : RunContext σ) (m : Machine σ) : Prop where
  /-- Below the innermost frame no walk goes on. -/
  below : ∀ frame ∈ m.frames.tail, frame.Resting
  planned : ∀ frame ∈ m.frames, frame.Planned ctx
  counted : m.run.cancellations = m.run.stopped.toNat
  /-- A run is stopped only once its token is set, and then no walk goes on. -/
  stopped : m.run.stopped = true →
    ctx.host.isCancelled m.run.state = true ∧ ∀ frame ∈ m.frames, frame.Resting

variable {ctx : RunContext σ} {m m' : Machine σ}

/-- A run whose token is not set was not stopped. -/
theorem Orderly.running (h : m.Orderly ctx) (htoken : ctx.host.isCancelled m.run.state = false) :
    m.run.stopped = false := by
  rw [← Bool.not_eq_true]
  intro hstopped
  rw [(h.stopped hstopped).1] at htoken
  cases htoken

/-- A run that is not stopped has its count at zero, and nothing else to show. -/
theorem Orderly.goes (h : m.Orderly ctx) {frames : List Frame} {depth : Nat} {r : Run σ}
    (hbelow : ∀ frame ∈ frames.tail, frame.Resting)
    (hplanned : ∀ frame ∈ frames, frame.Planned ctx)
    (hcount : r.cancellations = m.run.cancellations) (hbefore : m.run.stopped = false)
    (hrunning : r.stopped = false) : Orderly ctx { frames, depth, run := r } := by
  refine ⟨hbelow, hplanned, ?_, fun hstopped => ?_⟩
  · show r.cancellations = r.stopped.toNat
    rw [hcount, h.counted, hbefore, hrunning]
  · exact absurd (hrunning.symm.trans hstopped) (by decide)

/-- Every move keeps order, unless it halts the run. -/
theorem Orderly.move (h : m.Orderly ctx) (hmove : Move ctx m m') (hhalted : m'.halted = none) :
    m'.Orderly ctx := by
  have htail : ∀ {frames : List Frame} {P : Frame → Prop}, (∀ frame ∈ frames, P frame) →
      ∀ frame ∈ frames.tail, P frame := by
    intro frames P hall frame hframe
    exact hall frame (List.mem_of_mem_tail hframe)
  cases hmove with
  | completes _ =>
    exact ⟨htail h.below, htail h.planned, h.counted,
      fun hstopped => ⟨(h.stopped hstopped).1, h.below⟩⟩
  | @cancels pipeline id packet seed steps rest depth r failure htoken hcause =>
    obtain ⟨hcount, hstopped⟩ := r.cancellations_fail hcause pipeline
    refine ⟨htail h.below, htail h.planned, ?_, fun _ => ⟨htoken, h.below⟩⟩
    -- In a run that was stopped before, the walk would not arrive anywhere.
    have hrunning : r.stopped = false := by
      rw [← Bool.not_eq_true]
      intro hbefore
      have hresting := (h.stopped hbefore).2 _ List.mem_cons_self
      cases hresting
    have hcounted : r.cancellations = r.stopped.toNat := h.counted
    show (r.fail pipeline failure).cancellations = (r.fail pipeline failure).stopped.toNat
    rw [hcount, hcounted, hstopped, hrunning]
    rfl
  | @fails pipeline position packet seed steps rest depth r r' failure htoken hstill _ hcause =>
    have hrunning := h.running htoken
    obtain ⟨hcount, hstopped⟩ := r'.cancellations_fail_of_ne hcause pipeline
    refine h.goes (htail h.below) (htail h.planned) ?_ hrunning ?_
    · rw [hcount, Run.cancellations, hstill.errors]
      rfl
    · rw [hstopped, hstill.stopped]
      exact hrunning
  | halts _ => cases hhalted
  | @goes pipeline position position' packet packet' seed seed' steps steps' rest depth r r'
      htoken hstill _ =>
    have hrunning := h.running htoken
    refine h.goes h.below ?_ ?_ hrunning (hstill.stopped.trans hrunning)
    · exact List.forall_mem_cons.2 ⟨trivial, htail h.planned⟩
    · rw [Run.cancellations, hstill.errors]
      rfl
  | @writes pipeline position packet packet' seed seed' steps steps' rest depth r r' pool value
      subscriptions htoken hstill _ hplanned =>
    have hrunning := h.running htoken
    refine h.goes ?_ ?_ ?_ hrunning (hstill.stopped.trans hrunning)
    · exact List.forall_mem_cons.2 ⟨rfl, h.below⟩
    · exact List.forall_mem_cons.2 ⟨hplanned, List.forall_mem_cons.2 ⟨trivial, htail h.planned⟩⟩
    · rw [Run.cancellations, hstill.errors]
      rfl
  | told =>
    exact ⟨htail h.below, htail h.planned, h.counted,
      fun hstopped => ⟨(h.stopped hstopped).1, h.below⟩⟩
  | silenced _ =>
    refine ⟨h.below, ?_, h.counted, fun hstopped => ⟨(h.stopped hstopped).1, ?_⟩⟩
    · exact List.forall_mem_cons.2 ⟨List.forall_mem_nil _, htail h.planned⟩
    · exact List.forall_mem_cons.2 ⟨trivial, h.below⟩
  | @refused pool value s others rest depth r failure hrunning hcause =>
    obtain ⟨hcount, hstopped⟩ := r.cancellations_fail_of_ne hcause s.pipeline
    refine h.goes h.below ?_ hcount hrunning (hstopped.trans hrunning)
    refine List.forall_mem_cons.2 ⟨fun s' hs' => ?_, htail h.planned⟩
    exact h.planned _ List.mem_cons_self s' (List.mem_cons_of_mem s hs')
  | @tells pool value s others rest depth r hrunning =>
    refine h.goes ?_ ?_ rfl hrunning hrunning
    · exact List.forall_mem_cons.2 ⟨trivial, h.below⟩
    · refine List.forall_mem_cons.2 ⟨trivial, List.forall_mem_cons.2 ⟨fun s' hs' => ?_, ?_⟩⟩
      · exact h.planned _ List.mem_cons_self s' (List.mem_cons_of_mem s hs')
      · exact htail h.planned

/-- Some pipeline arrives at a node that exists. -/
def Arriving (ctx : RunContext σ) (m : Machine σ) : Prop :=
  ∃ pipeline id packet seed steps rest node,
    m.frames = .walk pipeline (some id) packet seed steps :: rest ∧
      ctx.program.node? id = some node

end Machine

-- ============================================================================
-- Frozen runs
-- ============================================================================

/-- What has become of a run since its token was set: nothing, but for at most one pipeline that
was started. -/
structure Run.Frozen (r r' : Run σ) : Prop where
  steps : r'.metrics.steps = r.metrics.steps
  pools : r'.pools = r.pools
  pipelines : r'.metrics.pipelinesRun ≤ r.metrics.pipelinesRun + 1

namespace Course

variable {ctx : RunContext σ} {c c' : Course σ} {base : Run σ}

/-- What holds of a course that was not halted. -/
structure Orderly (ctx : RunContext σ) (c : Course σ) : Prop where
  machine : c.machine.Orderly ctx
  rooted : ∀ task ∈ c.tasks, ∃ node, ctx.program.node? task.root = some node

/-- What a step of a course can do: a move of its machine, or else a task is passed over or
begun. -/
theorem step_cases (htidy : ctx.Tidy) (h : c.step ctx = some c') :
    (c.machine.Move ctx c'.machine ∧ c'.tasks = c.tasks) ∨
    ∃ task, c.tasks = task :: c'.tasks ∧ c.machine.step ctx = none ∧ c.machine.halted = none ∧
      ((c.run.stopped = true ∧ c'.machine = c.machine) ∨
        (c.run.stopped = false ∧ c'.machine = task.begin ctx c.run)) := by
  unfold step at h
  match hmachine : c.machine.step ctx with
  | some machine =>
    rw [hmachine] at h
    cases h
    exact .inl ⟨Machine.move_of_step htidy hmachine, rfl⟩
  | none =>
    rw [hmachine] at h
    match hhalted : c.machine.halted, htasks : c.tasks with
    | none, task :: tasks =>
      rw [hhalted, htasks] at h
      simp only at h
      refine .inr ⟨task, ?_⟩
      split at h
      · next hstopped =>
        cases h
        exact ⟨rfl, rfl, rfl, .inl ⟨hstopped, rfl⟩⟩
      · next hrunning =>
        cases h
        exact ⟨rfl, rfl, rfl, .inr ⟨Bool.eq_false_iff.2 hrunning, rfl⟩⟩
    | none, [] =>
      rw [hhalted, htasks] at h
      cases h
    | some _, _ =>
      rw [hhalted] at h
      cases h

end Course

/-- A task is begun in the state that was there, with nothing changed but counts and events that
have no bearing here, and starts its pipeline or none. -/
theorem Task.begin_cases (ctx : RunContext σ) (task : Task) (r : Run σ) :
    ∃ r' : Run σ, r.Still r' ∧ r'.state = r.state ∧ r'.pools = r.pools ∧
      (task.begin ctx r = .idle r' ∨ ∃ seed, task.begin ctx r = .start ctx task.root seed r') := by
  cases task with
  | finite root => exact ⟨r, ⟨rfl, rfl, rfl, rfl⟩, rfl, rfl, .inr ⟨none, rfl⟩⟩
  | fired s value => exact ⟨r.notified, ⟨rfl, rfl, rfl, rfl⟩, rfl, rfl, .inr ⟨some value, rfl⟩⟩
  | live root =>
    unfold Task.begin
    simp only
    split
    · exact ⟨r, ⟨rfl, rfl, rfl, rfl⟩, rfl, rfl, .inl rfl⟩
    · next node _ =>
      refine ⟨r.activated node.pipeline node.kind.liveLiteral, ⟨rfl, rfl, rfl, rfl⟩, rfl, rfl, ?_⟩
      split
      · exact .inr ⟨none, rfl⟩
      · exact .inl rfl

namespace Course

variable {ctx : RunContext σ} {c c' : Course σ} {base : Run σ}

/-- Every step of a course keeps order, unless it halts the run. -/
theorem Orderly.step (htidy : ctx.Tidy) (h : c.Orderly ctx) (hstep : c.step ctx = some c')
    (hhalted : c'.machine.halted = none) : c'.Orderly ctx := by
  rcases step_cases htidy hstep with ⟨hmove, htasks⟩ | ⟨task, htasks, -, -, hmachine⟩
  · refine ⟨h.machine.move hmove hhalted, ?_⟩
    rw [htasks]
    exact h.rooted
  · refine ⟨?_, fun task' htask' => h.rooted task' ?_⟩
    · rcases hmachine with ⟨-, hmachine⟩ | ⟨hrunning, hmachine⟩
      · rw [hmachine]
        exact h.machine
      · obtain ⟨r', hstill, -, -, hbegin⟩ := task.begin_cases ctx c.run
        have hcounted : r'.cancellations = r'.stopped.toNat := by
          rw [Run.cancellations, hstill.errors, hstill.stopped]
          exact h.machine.counted
        have hnever : r'.stopped ≠ true := by
          rw [hstill.stopped, hrunning]
          decide
        rw [hmachine]
        rcases hbegin with hidle | ⟨seed, hstart⟩
        · rw [hidle]
          exact ⟨List.forall_mem_nil _, List.forall_mem_nil _, hcounted,
            fun hstopped => absurd hstopped hnever⟩
        · rw [hstart]
          exact ⟨List.forall_mem_nil _, List.forall_mem_singleton.2 trivial, hcounted,
            fun hstopped => absurd hstopped hnever⟩
    · rw [htasks]
      exact List.mem_cons_of_mem task htask'

/-- A course that was halted goes nowhere. -/
theorem halted_of_step (h : c.step ctx = some c') : c.machine.halted = none := by
  match hhalted : c.machine.halted with
  | none => rfl
  | some halt =>
    simp only [Course.step, Machine.step, hhalted] at h
    cases h

/-- So does a whole course. -/
theorem Orderly.steps (htidy : ctx.Tidy) (h : c.Orderly ctx) (hsteps : Steps ctx c c')
    (hhalted : c'.machine.halted = none) : c'.Orderly ctx := by
  induction hsteps with
  | refl => exact h
  | tail _ hstep ih => exact (ih (halted_of_step hstep)).step htidy hstep hhalted

/-- What has become of a course since the token was set at `base`. If a pipeline was started, it
either arrives at its first node next, or was cancelled there. -/
structure FrozenSince (ctx : RunContext σ) (base : Run σ) (c : Course σ) : Prop where
  token : ctx.host.isCancelled c.run.state = true
  steps : c.run.metrics.steps = base.metrics.steps
  pools : c.run.pools = base.pools
  started : c.run.metrics.pipelinesRun = base.metrics.pipelinesRun ∨
    (c.run.metrics.pipelinesRun = base.metrics.pipelinesRun + 1 ∧
      (c.run.stopped = true ∨ c.machine.Arriving ctx))

/-- Where no pipeline is started, one that was arriving has to be cancelled. -/
theorem FrozenSince.stays (h : c.FrozenSince ctx base) (hstate : c'.run.state = c.run.state)
    (hsteps : c'.run.metrics.steps = c.run.metrics.steps) (hpools : c'.run.pools = c.run.pools)
    (hpipelines : c'.run.metrics.pipelinesRun = c.run.metrics.pipelinesRun)
    (hstopped : c.run.stopped = true ∨ c.machine.Arriving ctx → c'.run.stopped = true) :
    c'.FrozenSince ctx base where
  token := (congrArg _ hstate).trans h.token
  steps := hsteps.trans h.steps
  pools := hpools.trans h.pools
  started := by
    rcases h.started with hnone | ⟨hone, harrives⟩
    · exact .inl (hpipelines.trans hnone)
    · exact .inr ⟨hpipelines.trans hone, .inl (hstopped harrives)⟩

/-- Where a pipeline is started, none was before. -/
theorem FrozenSince.starts (h : c.FrozenSince ctx base) {tasks : List Task} {rest : List Frame}
    {depth : Nat} {r : Run σ} {root : NodeId} (seed : Option Value)
    (hstate : r.state = c.run.state) (hsteps : r.metrics.steps = c.run.metrics.steps)
    (hpools : r.pools = c.run.pools)
    (hpipelines : r.metrics.pipelinesRun = c.run.metrics.pipelinesRun)
    (hrunning : c.run.stopped = false) (harriving : ¬ c.machine.Arriving ctx)
    (hroot : ∃ node, ctx.program.node? root = some node) :
    FrozenSince ctx base
      ⟨tasks, Machine.enter ctx root seed { frames := rest, depth, run := r }⟩ where
  token := (congrArg _ hstate).trans h.token
  steps := hsteps.trans h.steps
  pools := hpools.trans h.pools
  started := by
    obtain ⟨node, hnode⟩ := hroot
    refine .inr ⟨?_, .inr ⟨_, _, _, _, _, _, node, rfl, hnode⟩⟩
    rcases h.started with hnone | ⟨-, hstopped | harrives⟩
    · exact congrArg (· + 1) (hpipelines.trans hnone)
    · rw [hrunning] at hstopped
      cases hstopped
    · exact absurd harrives harriving

/-- One step of a frozen course. -/
theorem FrozenSince.step (htidy : ctx.Tidy) (horder : c.Orderly ctx)
    (h : c.FrozenSince ctx base) (hstep : c.step ctx = some c') : c'.FrozenSince ctx base := by
  obtain ⟨tasks, m⟩ := c
  obtain ⟨tasks', m'⟩ := c'
  rcases step_cases htidy hstep with ⟨hmove, -⟩ | ⟨task, htasks, hend, hhalted, hmachine⟩
  · simp only at hmove
    cases hmove with
    | completes hnowhere =>
      refine h.stays rfl rfl rfl rfl ?_
      rintro (hstopped | ⟨_, id, _, _, _, _, node, hframes, hnode⟩)
      · exact hstopped
      · cases hframes
        rw [hnowhere id rfl] at hnode
        cases hnode
    | cancels _ hcause =>
      exact h.stays rfl rfl rfl rfl fun _ => (Run.cancellations_fail hcause _).2
    | fails hunset | halts hunset | goes hunset | writes hunset =>
      exact absurd (h.token.symm.trans hunset) (by decide)
    | told =>
      refine h.stays rfl rfl rfl rfl ?_
      rintro (hstopped | ⟨_, _, _, _, _, _, _, hframes, _⟩)
      · exact hstopped
      · cases hframes
    | silenced hstopped => exact h.stays rfl rfl rfl rfl fun _ => hstopped
    | refused hrunning hcause =>
      refine h.stays rfl rfl rfl rfl ?_
      rintro (hstopped | ⟨_, _, _, _, _, _, _, hframes, _⟩)
      · exact (Run.cancellations_fail_of_ne hcause _).2.trans hstopped
      · cases hframes
    | @tells pool value s others rest depth r hrunning =>
      refine h.starts (some value) rfl rfl rfl rfl hrunning ?_ ?_
      · rintro ⟨_, _, _, _, _, _, _, hframes, _⟩
        cases hframes
      · exact htidy.subscribed s (horder.machine.planned _ List.mem_cons_self s List.mem_cons_self)
  · simp only [Course.run] at hmachine hhalted hend
    rcases hmachine with ⟨hstopped, rfl⟩ | ⟨hrunning, rfl⟩
    · exact h.stays rfl rfl rfl rfl fun _ => hstopped
    · have harriving : ¬ m.Arriving ctx := by
        rintro ⟨_, _, _, _, _, _, _, hframes, _⟩
        simp only [Machine.step, hframes, hhalted] at hend
        cases hend
      obtain ⟨r', hstill, hstate, hpools', hbegin⟩ := task.begin_cases ctx m.run
      rcases hbegin with hidle | ⟨seed, hstart⟩
      · rw [hidle]
        refine h.stays hstate hstill.steps hpools' hstill.pipelines ?_
        rintro (hstopped | harrives)
        · exact absurd (hrunning.symm.trans hstopped) (by decide)
        · exact absurd harrives harriving
      · rw [hstart]
        refine h.starts seed hstate hstill.steps hpools' hstill.pipelines
          hrunning harriving (horder.rooted task ?_)
        rw [htasks]
        exact List.mem_cons_self

/-- A course that is frozen stays so. -/
theorem FrozenSince.lasts (htidy : ctx.Tidy) (horder : c.Orderly ctx)
    (h : c.FrozenSince ctx base) (hsteps : Steps ctx c c') : c'.FrozenSince ctx base := by
  induction hsteps with
  | refl => exact h
  | tail hbefore hstep ih =>
    exact ih.step htidy (horder.steps htidy hbefore (halted_of_step hstep)) hstep

theorem FrozenSince.frozen (h : c.FrozenSince ctx base) : base.Frozen c.run := by
  refine ⟨h.steps, h.pools, ?_⟩
  rcases h.started with hnone | ⟨hone, -⟩
  · omega
  · omega

/-- The step that sets the token is a node's run: it starts no pipeline and changes no pool, and
once the node was arrived at there is no further step. -/
theorem frozenSince_of_set (htidy : ctx.Tidy) (hunset : ctx.host.isCancelled c.run.state = false)
    (hstep : c.step ctx = some c') (hset : ctx.host.isCancelled c'.run.state = true)
    (hhalted : c'.machine.halted = none) : c'.FrozenSince ctx c.run.stepped := by
  obtain ⟨tasks, m⟩ := c
  obtain ⟨tasks', m'⟩ := c'
  simp only [Course.run] at hunset hset ⊢
  have hchanged : m'.run.state ≠ m.run.state := by
    intro hsame
    rw [hsame, hunset] at hset
    cases hset
  have hnode : ∀ {r' : Run σ}, m.run.stepped.Still r' →
      r'.pools = m.run.pools ∨ r'.state = m.run.state → r'.state ≠ m.run.state →
      m'.run.metrics.steps = r'.metrics.steps → m'.run.pools = r'.pools →
      m'.run.metrics.pipelinesRun = r'.metrics.pipelinesRun →
      FrozenSince ctx m.run.stepped ⟨tasks', m'⟩ := by
    intro r' hstill hapart hstate hsteps hpools hpipelines
    have hkept : r'.pools = m.run.pools := hapart.resolve_right hstate
    exact ⟨hset, hsteps.trans hstill.steps, hpools.trans hkept,
      .inl (hpipelines.trans hstill.pipelines)⟩
  rcases step_cases htidy hstep with ⟨hmove, -⟩ | ⟨task, -, -, -, hmachine⟩
  · simp only at hmove
    cases hmove with
    | completes | cancels | told | silenced | refused | tells => exact absurd rfl hchanged
    | halts => cases hhalted
    | fails _ hstill hapart _ => exact hnode hstill hapart hchanged rfl rfl rfl
    | goes _ hstill hapart => exact hnode hstill hapart hchanged rfl rfl rfl
    | writes _ hstill hapart _ => exact hnode hstill hapart hchanged rfl rfl rfl
  · simp only [Course.run] at hmachine
    rcases hmachine with ⟨-, hmachine⟩ | ⟨-, hmachine⟩
    · exact absurd (congrArg (·.run.state) hmachine) hchanged
    · obtain ⟨r', -, hstate, -, hbegin⟩ := task.begin_cases ctx m.run
      rcases hbegin with hidle | ⟨seed, hstart⟩
      · rw [hidle] at hmachine
        exact absurd ((congrArg (·.run.state) hmachine).trans hstate) hchanged
      · rw [hstart] at hmachine
        exact absurd ((congrArg (·.run.state) hmachine).trans hstate) hchanged

-- ============================================================================
-- The end of a run that was stopped
-- ============================================================================

/-- A run that was stopped starts no pipeline. -/
theorem stopped_step (htidy : ctx.Tidy) (horder : c.Orderly ctx) (hstopped : c.run.stopped = true)
    (hstep : c.step ctx = some c') :
    c'.run.stopped = true ∧ c'.run.metrics.pipelinesRun = c.run.metrics.pipelinesRun := by
  obtain ⟨tasks, m⟩ := c
  obtain ⟨tasks', m'⟩ := c'
  simp only [Course.run] at hstopped ⊢
  have htoken := (horder.machine.stopped hstopped).1
  rcases step_cases htidy hstep with ⟨hmove, -⟩ | ⟨task, -, -, -, hmachine⟩
  · simp only at hmove htoken
    cases hmove with
    | completes | told | silenced => exact ⟨hstopped, rfl⟩
    | cancels _ hcause => exact ⟨(Run.cancellations_fail hcause _).2, rfl⟩
    | fails hunset | halts hunset | goes hunset | writes hunset =>
      rw [htoken] at hunset
      cases hunset
    | refused hrunning | tells hrunning =>
      rw [hstopped] at hrunning
      cases hrunning
  · rcases hmachine with ⟨-, rfl⟩ | ⟨hrunning, -⟩
    · exact ⟨hstopped, rfl⟩
    · have hrunning : m.run.stopped = false := hrunning
      rw [hstopped] at hrunning
      cases hrunning

theorem stopped_steps (htidy : ctx.Tidy) (horder : c.Orderly ctx) (hstopped : c.run.stopped = true)
    (hsteps : Steps ctx c c') :
    c'.run.stopped = true ∧ c'.run.metrics.pipelinesRun = c.run.metrics.pipelinesRun := by
  induction hsteps with
  | refl => exact ⟨hstopped, rfl⟩
  | tail hbefore hstep ih =>
    have hthere := horder.steps htidy hbefore (halted_of_step hstep)
    obtain ⟨hstopped', hpipelines⟩ := stopped_step htidy hthere ih.1 hstep
    exact ⟨hstopped', hpipelines.trans ih.2⟩

/-- Frames of which none goes on complete one by one. -/
theorem unwinds (ctx : RunContext σ) (tasks : List Task) (frames : List Frame) (depth : Nat)
    {r : Run σ} (hstopped : r.stopped = true) (hresting : ∀ frame ∈ frames, frame.Resting) :
    ∃ depth', Steps ctx ⟨tasks, { frames, depth, run := r }⟩
      ⟨tasks, { frames := [], depth := depth', run := r.unwound frames }⟩ := by
  induction frames generalizing depth r with
  | nil => exact ⟨depth, .refl⟩
  | cons frame rest ih =>
    obtain ⟨hframe, hrest⟩ := List.forall_mem_cons.1 hresting
    cases frame with
    | walk pipeline position packet seed steps =>
      obtain rfl : position = none := hframe
      obtain ⟨depth', hsteps⟩ := ih depth (r := r.emit (.completed pipeline packet.value))
        hstopped hrest
      exact ⟨depth', hsteps.head rfl⟩
    | fan pool value subscriptions =>
      obtain ⟨depth', hsteps⟩ := ih (depth - 1) hstopped hrest
      cases subscriptions with
      | nil => exact ⟨depth', hsteps.head rfl⟩
      | cons s others =>
        have htold : Steps ctx ⟨tasks, { frames := .fan pool value [] :: rest, depth, run := r }⟩
            ⟨tasks, { frames := [], depth := depth', run := r.unwound rest }⟩ := hsteps.head rfl
        refine ⟨depth', htold.head ?_⟩
        simp only [Course.step, Machine.step, Machine.stepFan, hstopped, if_true]

/-- A run that was stopped passes its tasks over. -/
theorem passes (ctx : RunContext σ) (tasks : List Task) (depth : Nat) {r : Run σ}
    (hstopped : r.stopped = true) :
    Steps ctx ⟨tasks, { frames := [], depth, run := r }⟩
      ⟨[], { frames := [], depth, run := r }⟩ := by
  induction tasks with
  | nil => exact .refl
  | cons task rest ih =>
    refine ih.head ?_
    show (if r.stopped = true then _ else _ : Option (Course σ)) = _
    rw [if_pos hstopped]

theorem stopped_unwound {r : Run σ} (h : r.stopped = true) (frames : List Frame) :
    (r.unwound frames).stopped = true := by
  induction frames generalizing r with
  | nil => exact h
  | cons frame rest ih =>
    cases frame with
    | walk pipeline position packet seed steps => exact ih (r := r.emit _) h
    | fan pool value subscriptions => exact ih h

/-- A run that was stopped comes to its end: what was begun completes, and nothing else
happens. -/
theorem ends_of_stopped (horder : c.Orderly ctx) (hhalted : c.machine.halted = none)
    (hstopped : c.run.stopped = true) :
    ∃ last, Steps ctx c last ∧ last.step ctx = none ∧
      last.machine.outcome = (.ok (), c.run.unwound c.machine.frames) := by
  obtain ⟨tasks, frames, depth, r, halted⟩ := c
  obtain rfl : halted = none := hhalted
  have hresting := (horder.machine.stopped hstopped).2
  obtain ⟨depth', hunwinds⟩ := unwinds ctx tasks frames depth hstopped hresting
  have hpasses := passes ctx tasks depth' (stopped_unwound hstopped frames)
  exact ⟨_, hunwinds.trans hpasses, rfl, rfl⟩

end Course

-- ============================================================================
-- The start of a run
-- ============================================================================

/-- Graphs in which ids are indices, subscriptions start at nodes and pool writes come last are
tidy. -/
theorem Engine.tidy_context (engine : Engine σ) {program : Program} (hindexed : program.Indexed)
    (hwired : program.Wired) (hwrites : program.WritesLast) : (engine.context program).Tidy where
  finite root hroot := by
    simp only [context, Plan.ofProgram] at hroot
    obtain ⟨node, hnode, -⟩ := Plan.mem_rootsWhere hindexed hroot
    exact ⟨node, hnode⟩
  live root hroot := by
    obtain ⟨node, -, hnode, -⟩ := Plan.mem_liveRoots hindexed hroot
    exact ⟨node, hnode⟩
  subscribed s hs := by
    obtain ⟨node, hnode, -⟩ := hwired.rooted s hs
    exact ⟨node, hnode⟩
  writesLast hnode hkind := hwrites _ (Array.mem_of_getElem? hnode) _ hkind

/-- Those that source text builds are such graphs. -/
theorem Engine.tidy_parse (engine : Engine σ) (source : String) :
    (engine.context (.parse source)).Tidy := by
  obtain ⟨anchors, hlayout⟩ := Program.parse_layout source
  exact engine.tidy_context hlayout.indexed (Program.parse_wired source).1
    (Program.parse_writesLast source)

/-- Loading imports changes the host and the warnings. -/
theorem Exec.still_preloadImports (ctx : RunContext σ) (r : Run σ) :
    r.Still ((preloadImports ctx).after r) ∧ ((preloadImports ctx).after r).pools = r.pools := by
  have hkeeps : (preloadImports ctx).Keeps (fun _ => True)
      (fun r' => r.Still r' ∧ r'.pools = r.pools) := by
    refine keeps_forM _ fun i _ => keeps_modify fun r' hr => ?_
    split
    · exact ⟨⟨hr.1.errors, hr.1.stopped, hr.1.steps, hr.1.pipelines⟩, hr.2⟩
    · exact ⟨⟨hr.1.errors, hr.1.stopped, hr.1.steps, hr.1.pipelines⟩, hr.2⟩
  exact hkeeps.ends ⟨⟨rfl, rfl, rfl, rfl⟩, rfl⟩ (outcome_preloadImports ctx r)

/-- Loading imports does not take the token back. -/
theorem Exec.token_preloadImports {ctx : RunContext σ}
    (htoken : ctx.host.Steady fun s => ctx.host.isCancelled s = true) {r : Run σ}
    (hset : ctx.host.isCancelled r.state = true) :
    ctx.host.isCancelled ((preloadImports ctx).after r).state = true := by
  have hkeeps : (preloadImports ctx).Keeps (fun _ => True)
      (fun r => ctx.host.isCancelled r.state = true) := by
    refine keeps_forM _ fun i _ => keeps_modify fun r hr => ?_
    have hstate := htoken.preload i.library r.state hr
    split
    · next hload =>
      rw [hload] at hstate
      exact hstate
    · next hload =>
      rw [hload] at hstate
      exact hstate
  exact hkeeps.ends hset (outcome_preloadImports ctx r)

namespace Course

/-- A run starts in order. -/
theorem orderly_start {ctx : RunContext σ} (htidy : ctx.Tidy) (initial : PoolStore) (s : σ) :
    (start ctx initial s).Orderly ctx := by
  obtain ⟨hstill, -⟩ := Exec.still_preloadImports ctx (Engine.startState ctx initial s)
  have hstopped : (start ctx initial s).run.stopped = false := hstill.stopped
  refine ⟨⟨List.forall_mem_nil _, List.forall_mem_nil _, ?_, fun h => ?_⟩, fun task htask => ?_⟩
  · show Array.countP _ (start ctx initial s).run.errors = (start ctx initial s).run.stopped.toNat
    rw [hstopped, show (start ctx initial s).run.errors = #[] from hstill.errors]
    rfl
  · have h : (start ctx initial s).run.stopped = true := h
    rw [hstopped] at h
    cases h
  · rcases List.mem_append.1 htask with hfinite | hrest
    · obtain ⟨root, hroot, rfl⟩ := List.mem_map.1 hfinite
      exact htidy.finite root hroot
    · rcases List.mem_append.1 hrest with hlive | hfired
      · obtain ⟨root, hroot, rfl⟩ := List.mem_map.1 hlive
        exact htidy.live root hroot
      · split at hfired
        · obtain ⟨sub, hsub, rfl⟩ := List.mem_map.1 hfired
          exact htidy.subscribed sub hsub
        · cases hfired

/-- Where the token is set before a run, the run is frozen at its start. -/
theorem frozen_start {ctx : RunContext σ} (htidy : ctx.Tidy)
    (htoken : ctx.host.Steady fun s => ctx.host.isCancelled s = true) {initial : PoolStore} {s : σ}
    (hset : ctx.host.isCancelled s = true) {c : Course σ}
    (hsteps : Steps ctx (start ctx initial s) c) :
    c.run.metrics.steps = 0 ∧ c.run.pools = initial ∧ c.run.metrics.pipelinesRun ≤ 1 := by
  obtain ⟨hstill, hpools⟩ := Exec.still_preloadImports ctx (Engine.startState ctx initial s)
  have hset' : ctx.host.isCancelled (start ctx initial s).run.state = true :=
    Exec.token_preloadImports htoken hset
  have hfrozen : (start ctx initial s).FrozenSince ctx (start ctx initial s).run :=
    ⟨hset', rfl, rfl, .inl rfl⟩
  have hlast := (hfrozen.lasts htidy (orderly_start htidy initial s) hsteps).frozen
  refine ⟨hlast.steps.trans hstill.steps, hlast.pools.trans hpools, ?_⟩
  exact hlast.pipelines.trans (congrArg (· + 1) hstill.pipelines).le

end Course

namespace Engine

/-- Cancellation freezes a run. The token is never taken back (`htoken`), so that once it is set,
before the run or while an operator is at work, it is set from then on.

The course of a run comes to the end on which the engine reports. If the token is set at its
start, no node is arrived at. At any moment at most one error says that the run was cancelled.
From the moment the token is set no step is counted, no pool changes, and at most one more
pipeline is started; if it is set within the run of a node, the last step that was counted is the
arrival at this node. Once the error is recorded, no pipeline starts at all: the run is not
halted, and ends with nothing more than the completion of the pipelines that were under way. -/
theorem cancellation_freezes (engine : Engine σ) (source : String) (s : σ) (initial : PoolStore)
    (htoken : engine.host.Steady fun s => engine.host.isCancelled s = true)
    (hinitial : Exec.initialPools (engine.context (.parse source)) = .ok initial) :
    let ctx := engine.context (.parse source)
    let start := Course.start ctx initial s
    (∃ last, Course.Steps ctx start last ∧ last.step ctx = none ∧
      engine.runSource source s = engine.conclude last.machine.outcome) ∧
    (engine.host.isCancelled s = true → ∀ c, Course.Steps ctx start c →
      c.run.metrics.steps = 0 ∧ c.run.pools = initial ∧ c.run.metrics.pipelinesRun ≤ 1) ∧
    ∀ c, Course.Steps ctx start c → c.machine.halted = none →
      c.run.cancellations ≤ 1 ∧
      (engine.host.isCancelled c.run.state = true →
        ∀ c', Course.Steps ctx c c' → c.run.Frozen c'.run) ∧
      (engine.host.isCancelled c.run.state = false → ∀ c', c.step ctx = some c' →
        engine.host.isCancelled c'.run.state = true → c'.machine.halted = none →
        ∀ c'', Course.Steps ctx c' c'' → c.run.stepped.Frozen c''.run) ∧
      (c.run.cancellations = 1 →
        (∀ c', Course.Steps ctx c c' →
          c'.run.metrics.pipelinesRun = c.run.metrics.pipelinesRun) ∧
        engine.runSource source s =
          engine.conclude (.ok (), c.run.unwound c.machine.frames)) := by
  have htidy := engine.tidy_parse source
  have hcourse := engine.run_eq_course s hinitial
  unfold runSource
  generalize hctx : engine.context (.parse source) = ctx at *
  intro ctx' start
  have hhost : ctx.host = engine.host := by
    rw [← hctx]
    rfl
  rw [← hhost] at htoken ⊢
  have hstart : start.Orderly ctx := Course.orderly_start htidy initial s
  refine ⟨hcourse, fun hset c hsteps => Course.frozen_start htidy htoken hset hsteps,
    fun c hsteps hhalted => ?_⟩
  have horder := hstart.steps htidy hsteps hhalted
  have hcounted : c.run.cancellations = c.run.stopped.toNat := horder.machine.counted
  refine ⟨?_, fun hset c' hsteps' => ?_, fun hunset c' hstep hset hhalted' c'' hsteps' => ?_,
    fun hone => ?_⟩
  · rw [hcounted]
    exact Bool.toNat_le _
  · have hfrozen : c.FrozenSince ctx c.run := ⟨hset, rfl, rfl, .inl rfl⟩
    exact (hfrozen.lasts htidy horder hsteps').frozen
  · have hfrozen := Course.frozenSince_of_set htidy hunset hstep hset hhalted'
    exact (hfrozen.lasts htidy (horder.step htidy hstep hhalted') hsteps').frozen
  · have hstopped : c.run.stopped = true := by
      rw [hcounted] at hone
      exact Bool.toNat_eq_one.1 hone
    obtain ⟨last, hlast, hend, hrun⟩ := hcourse
    obtain ⟨last', hlast', hend', hout⟩ := Course.ends_of_stopped horder hhalted hstopped
    refine ⟨fun c' hsteps' => (Course.stopped_steps htidy horder hstopped hsteps').2, ?_⟩
    rw [← hout, ← Course.eq_of_ends hlast hend (hsteps.trans hlast') hend']
    exact hrun

/-- An operator that cancels the run and hands its input on. -/
def stopOperator : Operator (Session Unit) :=
  ⟨"stop", .any, .core, "session", fun input _ => .perform fun s => (.ok input, s.cancel)⟩

/-- No operator of the session takes the token back. -/
theorem stopping_steady :
    (Session.host [stopOperator]).Steady fun s => (Session.host [stopOperator]).isCancelled s where
  resolve name profile s hs := by
    unfold Session.host Session.resolve
    simp only
    split
    · exact hs
    · exact hs
  found name profile s op _ h := by
    rcases Session.resolve_cases h with ⟨hown, -⟩ | hregistry
    · obtain rfl := List.mem_singleton.1 hown
      exact fun _ _ _ _ => rfl
    · refine fun input args => (Session.resolve_callsAs hregistry input args).staysIn ?_
      intro effect t hscript ht
      obtain ⟨own, hown⟩ := hscript.snd_eq t
      rw [hown]
      exact ht
  record _ _ _ _ hs := hs
  preload _ _ hs := hs

/-- Two subscribers of a pool, of which the first cancels the run at its end, and a pipeline that
would come after them. -/
def stoppingSource : String :=
  "p -> stop\np -> print\n~ 1 | to_pool(p)\n~ 2 | print"

set_option maxRecDepth 4000 in
/-- The second subscriber is the one more pipeline that is started, and fails where it arrives
first; in a session that was cancelled before, not even the first source is arrived at. -/
theorem stopping_freezes :
    ∃ initial finished,
      Exec.initialPools ((Session.engine {} [stopOperator]).context (.parse stoppingSource)) =
        .ok initial ∧
      (Session.engine {} [stopOperator]).runSource stoppingSource (.ofConfig {} ()) =
        .ok finished ∧
      finished.report.metrics.steps = 4 ∧ finished.report.metrics.pipelinesRun = 3 ∧
      finished.report.errors.length = 1 ∧
      (∀ c, Course.Steps ((Session.engine {} [stopOperator]).context (.parse stoppingSource))
          (.start ((Session.engine {} [stopOperator]).context (.parse stoppingSource)) initial
            (.ofConfig {} ())) c →
        c.machine.halted = none → c.run.cancellations ≤ 1) ∧
      ∀ c, Course.Steps ((Session.engine {} [stopOperator]).context (.parse stoppingSource))
          (.start ((Session.engine {} [stopOperator]).context (.parse stoppingSource)) initial
            (Session.cancel (.ofConfig {} ()))) c →
        c.run.metrics.steps = 0 := by
  have hcounts : (match (Session.engine {} [stopOperator]).runSource stoppingSource
        (.ofConfig {} ()) with
      | .ok finished => decide (finished.report.metrics.steps = 4 ∧
          finished.report.metrics.pipelinesRun = 3 ∧ finished.report.errors.length = 1)
      | .error _ => false) = true := by decide +kernel
  match hrun : (Session.engine {} [stopOperator]).runSource stoppingSource (.ofConfig {} ()) with
  | .error halted =>
    rw [hrun] at hcounts
    cases hcounts
  | .ok finished =>
    rw [hrun] at hcounts
    obtain ⟨hsteps, hpipelines, herrors⟩ := of_decide_eq_true hcounts
    obtain ⟨initial, -, hinitial, -, -⟩ := run_eq_ok hrun
    obtain ⟨-, -, hcourse⟩ := cancellation_freezes _ _ (.ofConfig {} ()) initial stopping_steady
      hinitial
    obtain ⟨-, hbefore, -⟩ := cancellation_freezes _ _ (Session.cancel (.ofConfig {} ())) initial
      stopping_steady hinitial
    refine ⟨initial, finished, hinitial, rfl, hsteps, hpipelines, herrors, ?_, ?_⟩
    · exact fun c hc hhalted => (hcourse c hc hhalted).1
    · exact fun c hc => (hbefore rfl c hc).1

end Engine

end Sluice
