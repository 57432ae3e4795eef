/-
  Sluice.Proofs.Walk.Forward

  A walk through a graph that is laid out only goes forward, and never leaves its pipeline. Where
  it goes on is the node that follows, a branch that hangs off its node, or the first node behind
  the scope of a branch that is passed over; each of these is later in the same pipeline.

  So the nodes at which a walk counts its steps are different nodes of one pipeline, and a
  pipeline runs out of steps only if it has more nodes than the settings allow steps. `Walks` says
  once what a walk can do, step by step; the rest is read off it.
-/

import Sluice.Proofs.Program.Shape
import Sluice.Proofs.Run.Keeping
import Sluice.Proofs.Walk.Routes
import Sluice.Session

namespace Sluice

variable {σ : Type}

/-- The nodes of a pipeline, in order. -/
def Program.nodesOf (p : Program) (k : PipelineId) : List Nat :=
  (List.range p.nodes.size).filter fun i => p.pipeline? i == some k

-- ============================================================================
-- The steps of a walk
-- ============================================================================

/-- The ids at which a walk counts a step: those of the nodes that it runs, and that of the node
at which its budget is used up. -/
def Step.arrivals (ctx : RunContext σ) (notify : String → Value → Exec σ Unit) :
    (budget : Nat) → Nat → Packet → Option Value → Run σ → List Nat
  | 0, id, _, _, r =>
    match (arrive ctx id).outcome r with
    | (.ok (.ok (some _)), _) => [id]
    | _ => []
  | budget + 1, id, packet, seed, r =>
    match (arrive ctx id).outcome r with
    | (.ok (.ok (some node)), r) =>
      match (runNode ctx notify node packet seed).outcome r with
      | (.ok (.ok flow), r) =>
        match (⟨id, node, packet, some flow⟩ : Visit).onward? ctx.plan with
        | some (next, packet) => id :: arrivals ctx notify budget next packet none r
        | none => [id]
      | _ => [id]
    | _ => []

/-- What a walk does with a budget from a node on: the ids at which it counts a step, and what
comes of it. -/
inductive Walks (ctx : RunContext σ) (notify : String → Value → Exec σ Unit) :
    Nat → Nat → Packet → Option Value → Run σ → List Nat →
      Except Halt (Except Failure Value) × Run σ → Prop where
  /-- There is no node. -/
  | nowhere {budget id packet seed r} : Walks ctx notify budget id packet seed r []
      (.ok (.ok packet.value), r)
  | cancelled {budget id packet seed r node} :
    Walks ctx notify budget id packet seed r []
      (.ok (.error ⟨.cancelled, .atNode node node.name⟩), r)
  /-- The budget is used up. -/
  | exhausted {id packet seed r node} : ctx.program.node? id = some node →
    Walks ctx notify 0 id packet seed r [id]
      (.ok (.error ⟨.limitExceeded .pipelineSteps ctx.config.maxSteps, .atNode node node.name⟩),
        r.stepped)
  | halted {budget id packet seed r node h r'} : ctx.program.node? id = some node →
    (Step.runNode ctx notify node packet seed).outcome r.stepped = (.error h, r') →
    Walks ctx notify (budget + 1) id packet seed r [id] (.error h, r')
  | failed {budget id packet seed r node f r'} : ctx.program.node? id = some node →
    (Step.runNode ctx notify node packet seed).outcome r.stepped = (.ok (.error f), r') →
    Walks ctx notify (budget + 1) id packet seed r [id] (.ok (.error f), r')
  | ends {budget id packet seed r node flow r'} : ctx.program.node? id = some node →
    (Step.runNode ctx notify node packet seed).outcome r.stepped = (.ok (.ok flow), r') →
    Walks ctx notify (budget + 1) id packet seed r [id] (.ok (.ok flow.packet.value), r')
  /-- The node is run, and the walk goes on. -/
  | goes {budget id packet seed r node flow r' next packet' ids out} :
    ctx.program.node? id = some node →
    (Step.runNode ctx notify node packet seed).outcome r.stepped = (.ok (.ok flow), r') →
    (⟨id, node, packet, some flow⟩ : Visit).onward? ctx.plan = some (next, packet') →
    Walks ctx notify budget next packet' none r' ids out →
    Walks ctx notify (budget + 1) id packet seed r (id :: ids) out

/-- Arriving counts a step if there is a node to arrive at, and fails only when cancelled. -/
theorem Step.outcome_arrive (ctx : RunContext σ) (id : Nat) (r : Run σ) :
    (arrive ctx id).outcome r =
      match ctx.program.node? id with
      | none => (.ok (.ok none), r)
      | some node =>
        if ctx.host.isCancelled r.state then
          (.ok (.error ⟨.cancelled, .atNode node node.name⟩), r)
        else (.ok (.ok (some node)), r.stepped) := by
  unfold arrive
  match ctx.program.node? id with
  | none => rfl
  | some node =>
    simp only
    rw [outcome_get_bind]
    split <;> rfl

/-- Every walk does what `Walks` says. -/
theorem Step.walks (ctx : RunContext σ) (notify : String → Value → Exec σ Unit)
    (budget id : Nat) (packet : Packet) (seed : Option Value) (r : Run σ) :
    Walks ctx notify budget id packet seed r (arrivals ctx notify budget id packet seed r)
      ((walk ctx notify budget id packet seed).outcome r) := by
  rw [← trace_outcome]
  induction budget generalizing id packet seed r with
  | zero =>
    unfold trace arrivals
    rw [outcome_arrive]
    cases hnode : ctx.program.node? id with
    | none => exact .nowhere
    | some node =>
      by_cases hcancelled : ctx.host.isCancelled r.state
      · simp only [hcancelled, if_true]
        exact .cancelled
      · simp only [hcancelled]
        exact .exhausted hnode
  | succ budget ih =>
    unfold trace arrivals
    rw [outcome_arrive]
    cases hnode : ctx.program.node? id with
    | none => exact .nowhere
    | some node =>
      by_cases hcancelled : ctx.host.isCancelled r.state
      · simp only [hcancelled, if_true]
        exact .cancelled
      · simp only [hcancelled, Bool.false_eq_true, if_false]
        rcases hrun : (runNode ctx notify node packet seed).outcome r.stepped with
          ⟨h | f | flow, r'⟩
        · exact .halted hnode hrun
        · exact .failed hnode hrun
        · simp only
          rcases honward : (⟨id, node, packet, some flow⟩ : Visit).onward? ctx.plan with
            _ | ⟨next, packet'⟩
          · exact .ends hnode hrun
          · exact .goes hnode hrun honward (ih next packet' none r')

-- ============================================================================
-- Counting
-- ============================================================================

/-- A cause that is not the limit of steps. -/
def Cause.WithinSteps (c : Cause) : Prop :=
  ∀ bound, c ≠ .limitExceeded .pipelineSteps bound

/-- Notifying counts no steps. -/
def CountsNone (notify : String → Value → Exec σ Unit) : Prop :=
  ∀ pool value r, ((notify pool value).outcome r).2.metrics.steps = r.metrics.steps

/-- What operators and lenses do counts no steps, and is not limited by them. -/
theorem showing_steps (ctx : RunContext σ) (counts : Prop) (n : Nat) :
    Showing ctx (fun _ => True) Cause.WithinSteps (fun _ => True)
      (fun r => counts → r.metrics.steps = n) where
  refusal e bound := by cases e <;> simp [Cause.ofRefusal]
  warn _ hr := hr
  retry hr := hr
  resolve _ _ hr := hr
  found _ _ _ _ _ := trivial
  attempt _ hr h := by
    cases h
    exact ⟨fun _ => hr, fun _ _ => trivial⟩
  print _ _ hr := hr
  render _ _ hr := hr

/-- A node does not run out of steps, and counts none beyond those of the subscribers that it
notifies. -/
theorem Step.keeps_runNode_steps (ctx : RunContext σ) (notify : String → Value → Exec σ Unit)
    (node : Node) (packet : Packet) (seed : Option Value) (n : Nat) :
    Keeps Cause.WithinSteps (fun _ => True) (fun r => CountsNone notify → r.metrics.steps = n)
      (runNode ctx notify node packet seed) := by
  refine keeps_runNode (showing_steps ctx _ n) seed fun pool _ => ?_
  have hwritable : Writable (fun _ => True)
      (fun r : Run σ => CountsNone notify → r.metrics.steps = n) :=
    ⟨fun _ hr _ => hr, fun _ _ => trivial, fun _ hr _ => hr⟩
  refine keeps_writePool hwritable (fun r hr => ?_) node
  match hout : (notify pool packet.value).outcome r with
  | (.error h, r') => trivial
  | (.ok _, r') =>
    intro hcounts
    have hsame := hcounts pool packet.value r
    rw [hout] at hsame
    exact hsame.trans (hr hcounts)

namespace Walks

variable {ctx : RunContext σ} {notify : String → Value → Exec σ Unit} {budget id : Nat}
  {packet : Packet} {seed : Option Value} {r : Run σ} {ids : List Nat}
  {out : Except Halt (Except Failure Value) × Run σ}

/-- The steps that a walk counts are its arrivals, unless it notifies subscribers. -/
theorem steps_eq (h : Walks ctx notify budget id packet seed r ids out)
    (hcounts : CountsNone notify) {result : Except Failure Value} (hout : out.1 = .ok result) :
    out.2.metrics.steps = r.metrics.steps + ids.length := by
  have hrun : ∀ {r : Run σ} {node packet seed result r'},
      (Step.runNode ctx notify node packet seed).outcome r.stepped = (.ok result, r') →
      r'.metrics.steps = r.metrics.steps + 1 := by
    intro r node packet seed result r' heq
    have hkeeps := Step.keeps_runNode_steps ctx notify node packet seed (r.metrics.steps + 1)
      r.stepped fun _ => rfl
    rw [heq] at hkeeps
    cases result with
    | error f => exact hkeeps.1 hcounts
    | ok flow => exact hkeeps hcounts
  induction h with
  | nowhere => rfl
  | cancelled => rfl
  | exhausted hnode => rfl
  | halted hnode hhalts => cases hout
  | failed hnode hfails => exact hrun hfails
  | ends hnode hends => exact hrun hends
  | goes hnode hgoes honward hrest ih =>
    rw [ih hout, hrun hgoes, List.length_cons]
    omega

/-- A walk that runs out of steps has counted one more than its budget. It fails at the last
node that it arrived at. -/
theorem of_exhausted (h : Walks ctx notify budget id packet seed r ids out) {f : Failure}
    {r' : Run σ} (hout : out = (.ok (.error f), r')) {bound : Nat}
    (hcause : f.cause = .limitExceeded .pipelineSteps bound) :
    bound = ctx.config.maxSteps ∧ ids.length = budget + 1 ∧
    ∃ i ∈ ids, ∃ node, ctx.program.node? i = some node ∧ f.location = .atNode node node.name := by
  induction h with
  | nowhere => cases hout
  | cancelled =>
    cases hout
    cases hcause
  | @exhausted id packet seed r node hnode =>
    cases hout
    cases hcause
    exact ⟨rfl, rfl, id, List.mem_singleton_self id, node, hnode, rfl⟩
  | halted hnode hhalts => cases hout
  | @failed budget id packet seed r node f' r'' hnode hfails =>
    cases hout
    have hkeeps := Step.keeps_runNode_steps ctx notify node packet seed (r.metrics.steps + 1)
      r.stepped fun _ => rfl
    rw [hfails] at hkeeps
    exact absurd hcause (hkeeps.2 bound)
  | ends hnode hends => cases hout
  | goes hnode hgoes honward hrest ih =>
    obtain ⟨hbound, hlength, i, hi, hlast⟩ := ih hout
    refine ⟨hbound, ?_, i, List.mem_cons_of_mem _ hi, hlast⟩
    rw [List.length_cons, hlength]

end Walks

-- ============================================================================
-- Going forward
-- ============================================================================

/-- Where a walk goes on is in the pipeline that it is in. -/
theorem Visit.pipeline?_onward {ctx : RunContext σ} {anchors : Nat → Nat} {v : Visit}
    (hctx : ctx.Planned anchors) (hmove : Move ctx.program ctx.plan v) {next : Nat}
    {packet : Packet} (honward : v.onward? ctx.plan = some (next, packet)) :
    ctx.program.pipeline? next = ctx.program.pipeline? v.id := by
  have hp := hctx.layout
  rcases leads_to hmove honward with hbranch | ⟨rfl, hcontinues, -⟩ | ⟨-, hlt, hcontinues, -, hin⟩
  · obtain ⟨hb, ha⟩ := hp.mem_branchesOf.1 hbranch
    rw [hp.pipeline?_anchor hb, ha]
  · refine hp.pipeline?_eq (Nat.le_succ v.id) fun j hj hjn => ?_
    obtain rfl : j = v.id + 1 := by omega
    exact hcontinues
  · refine hp.pipeline?_eq (Nat.le_of_lt hlt) fun j hj hjn => ?_
    rcases Nat.lt_or_eq_of_le hjn with hbefore | rfl
    · exact (hp.block j v.id (hin j hj hbefore)).1
    · exact hcontinues

namespace Walks

variable {ctx : RunContext σ} {anchors : Nat → Nat} {notify : String → Value → Exec σ Unit}
  {budget id : Nat} {packet : Packet} {seed : Option Value} {r : Run σ} {ids : List Nat}
  {out : Except Halt (Except Failure Value) × Run σ}

/-- One step of a walk goes forward in its pipeline. -/
theorem forward_step (hctx : ctx.Planned anchors) {node : Node}
    (hnode : ctx.program.node? id = some node) {r' : Run σ} {flow : Flow}
    (hrun : (Step.runNode ctx notify node packet seed).outcome r = (.ok (.ok flow), r'))
    {next : Nat} {packet' : Packet}
    (honward : (⟨id, node, packet, some flow⟩ : Visit).onward? ctx.plan = some (next, packet')) :
    id < next ∧ ctx.program.pipeline? next = ctx.program.pipeline? id := by
  have hlawful : Visit.Lawful ctx.plan ⟨id, node, packet, some flow⟩ :=
    Step.returns_runNode r flow r' hrun
  have hmove := Visit.move hctx hnode hlawful
  exact ⟨Visit.lt_of_onward? hctx hmove honward, Visit.pipeline?_onward hctx hmove honward⟩

/-- A walk never goes back behind its start, nor out of its pipeline. -/
theorem within (hctx : ctx.Planned anchors) (h : Walks ctx notify budget id packet seed r ids out) :
    ∀ i ∈ ids, id ≤ i ∧ i < ctx.program.nodes.size ∧
      ctx.program.pipeline? i = ctx.program.pipeline? id := by
  have hfirst : ∀ {id : Nat} {node}, ctx.program.node? id = some node → ∀ i ∈ [id],
      id ≤ i ∧ i < ctx.program.nodes.size ∧
        ctx.program.pipeline? i = ctx.program.pipeline? id := by
    intro id node hnode i hi
    rw [List.mem_singleton.1 hi]
    exact ⟨Nat.le_refl id, Program.lt_size_of_node? hnode, rfl⟩
  induction h with
  | nowhere => exact List.forall_mem_nil _
  | cancelled => exact List.forall_mem_nil _
  | exhausted hnode => exact hfirst hnode
  | halted hnode _ => exact hfirst hnode
  | failed hnode _ => exact hfirst hnode
  | ends hnode _ => exact hfirst hnode
  | @goes budget id packet seed r node flow r' next packet' ids out hnode hrun honward _ ih =>
    obtain ⟨hlt, hpipeline⟩ := forward_step hctx hnode hrun honward
    intro i hi
    rcases List.mem_cons.1 hi with rfl | hi
    · exact hfirst hnode i (List.mem_singleton_self i)
    · obtain ⟨hle, hsize, hsame⟩ := ih i hi
      exact ⟨by omega, hsize, hsame.trans hpipeline⟩

/-- The ids at which a walk counts a step increase. -/
theorem increasing (hctx : ctx.Planned anchors)
    (h : Walks ctx notify budget id packet seed r ids out) : ids.Pairwise (· < ·) := by
  induction h with
  | nowhere => exact List.Pairwise.nil
  | cancelled => exact List.Pairwise.nil
  | exhausted => exact List.pairwise_singleton _ _
  | halted => exact List.pairwise_singleton _ _
  | failed => exact List.pairwise_singleton _ _
  | ends => exact List.pairwise_singleton _ _
  | goes hnode hrun honward hrest ih =>
    refine List.pairwise_cons.2 ⟨fun i hi => ?_, ih⟩
    have hlt := (forward_step hctx hnode hrun honward).1
    exact Nat.lt_of_lt_of_le hlt (hrest.within hctx i hi).1

/-- A walk counts at most one step for each node of its pipeline. -/
theorem length_le (hctx : ctx.Planned anchors)
    (h : Walks ctx notify budget id packet seed r ids out) {k : PipelineId}
    (hk : ∀ i ∈ ids, ctx.program.pipeline? i = some k) :
    ids.length ≤ (ctx.program.nodesOf k).length := by
  have hnodup : ids.Nodup := (h.increasing hctx).imp Nat.ne_of_lt
  refine (List.subperm_of_subset hnodup fun i hi => ?_).length_le
  refine List.mem_filter.2 ⟨List.mem_range.2 (h.within hctx i hi).2.1, ?_⟩
  rw [hk i hi, beq_self_eq_true]

/-- All steps of a walk from a root are counted in the pipeline of the root. -/
theorem pipeline?_eq (hctx : ctx.Planned anchors)
    (h : Walks ctx notify budget id packet seed r ids out) :
    ∀ i ∈ ids, ctx.program.pipeline? i = some (ctx.pipelineOf id) := by
  intro i hi
  obtain ⟨-, hsize, hsame⟩ := h.within hctx i hi
  obtain ⟨k, hk⟩ := ctx.program.exists_pipeline? hsize
  have hroot : ctx.program.pipeline? id = some k := hsame ▸ hk
  have hof : ctx.pipelineOf id = k := by
    unfold RunContext.pipelineOf
    unfold Program.pipeline? at hroot
    rw [hroot, Option.getD_some]
  rw [hk, hof]

end Walks

-- ============================================================================
-- Running out of steps
-- ============================================================================

/-- If a failure of a pipeline is one of the limit of steps, it is at a node of the pipeline, and
the pipeline has more nodes than the limit. -/
def Failure.Warranted (ctx : RunContext σ) (k : PipelineId) (f : Failure) : Prop :=
  ∀ bound, f.cause = .limitExceeded .pipelineSteps bound →
    bound = ctx.config.maxSteps ∧ f.location.pipeline = some k ∧
      bound < (ctx.program.nodesOf k).length

/-- A walk that runs out of steps does so in a pipeline with more nodes than its budget. -/
theorem Step.warranted_walk {ctx : RunContext σ} {anchors : Nat → Nat} (hctx : ctx.Planned anchors)
    {notify : String → Value → Exec σ Unit} {root : NodeId} {packet : Packet}
    {seed : Option Value} {r r' : Run σ} {f : Failure}
    (h : (walk ctx notify ctx.config.maxSteps root packet seed).outcome r =
      (.ok (.error f), r')) : f.Warranted ctx (ctx.pipelineOf root) := by
  intro bound hcause
  have hwalks := walks ctx notify ctx.config.maxSteps root packet seed r
  obtain ⟨hbound, hlength, i, hi, node, hnode, hlocation⟩ := hwalks.of_exhausted h hcause
  have hpipeline := hwalks.pipeline?_eq hctx
  refine ⟨hbound, ?_, ?_⟩
  · have hthere := hpipeline i hi
    unfold Program.pipeline? at hthere
    rw [hnode, Option.map_some] at hthere
    rw [hlocation]
    exact hthere
  · have hle := hwalks.length_le hctx hpipeline
    omega

/-- Every failure that a run took note of is warranted. -/
structure Run.Warranted (ctx : RunContext σ) (r : Run σ) : Prop where
  errors : ∀ f ∈ r.errors, ∃ k, f.Warranted ctx k
  events : ∀ k f, .failed k f ∈ r.events → f.Warranted ctx k

namespace Run.Warranted

variable {ctx : RunContext σ} {r : Run σ}

theorem emit (hr : r.Warranted ctx) (event : Event) (hevent : ∀ k f, event ≠ .failed k f) :
    (r.emit event).Warranted ctx := by
  refine ⟨hr.errors, fun k f hf => ?_⟩
  rcases Array.mem_push.1 hf with hbefore | heq
  · exact hr.events k f hbefore
  · exact absurd heq.symm (hevent k f)

theorem fail (hr : r.Warranted ctx) {k : PipelineId} {f : Failure} (hf : f.Warranted ctx k) :
    (r.fail k f).Warranted ctx := by
  constructor
  · intro g hg
    rcases Array.mem_push.1 hg with hbefore | rfl
    · exact hr.errors g hbefore
    · exact ⟨k, hf⟩
  · intro l g hg
    rcases Array.mem_push.1 hg with hbefore | heq
    · exact hr.events l g hbefore
    · cases heq
      exact hf

end Run.Warranted

/-- Whatever a run does beside taking note of failures, they stay warranted. -/
theorem noting_warranted (ctx : RunContext σ) :
    Noting ctx (fun _ => True) (fun _ => True) (fun _ => True) (Run.Warranted ctx) where
  refusal _ := trivial
  warn _ hr := ⟨hr.errors, hr.events⟩
  retry hr := ⟨hr.errors, hr.events⟩
  resolve _ _ hr := ⟨hr.errors, hr.events⟩
  found _ _ _ _ _ := trivial
  attempt _ hr h := by
    cases h
    exact ⟨fun _ => ⟨hr.errors, hr.events⟩, fun _ _ => trivial⟩
  print pipeline text hr := by
    have h := hr.emit (.printed pipeline text) fun _ _ => Event.noConfusion
    exact ⟨h.errors, h.events⟩
  render _ _ hr := hr.emit _ fun _ _ => Event.noConfusion
  step hr := ⟨hr.errors, hr.events⟩
  cancelled _ _ := trivial
  exhausted := trivial
  start pipeline root hr := by
    have h := hr.emit (.started pipeline root) fun _ _ => Event.noConfusion
    exact ⟨h.errors, h.events⟩
  complete _ _ hr := hr.emit _ fun _ _ => Event.noConfusion
  make _ hr _ := ⟨hr.errors, hr.events⟩
  full _ _ := trivial
  write {r pool} value hr _ := by
    have h := hr.emit (.poolUpdated pool value ((r.pools.write pool value).1.getD 0))
      fun _ _ => Event.noConfusion
    exact ⟨h.errors, h.events⟩
  notify hr := ⟨hr.errors, hr.events⟩
  activate pipeline literal hr := by
    have h := hr.emit (.liveActivated pipeline literal) fun _ _ => Event.noConfusion
    exact ⟨h.errors, h.events⟩
  preload _ hr := ⟨hr.errors, hr.events⟩

/-- A run with its subscribers below it takes note of warranted failures only. -/
theorem Exec.keeps_runNested_warranted {ctx : RunContext σ} {anchors : Nat → Nat}
    (hctx : ctx.Planned anchors) (levels : Nat) (root : NodeId) (seed : Option Value) :
    (runNested ctx levels root seed).Keeps (fun _ => True) (Run.Warranted ctx) := by
  have hn := noting_warranted ctx
  induction levels generalizing root seed with
  | zero =>
    refine keeps_runPipeline_of hn RunContext.closed_univ (fun _ _ _ value => ?_) trivial seed
      fun hr _ hwalk => hr.fail (Step.warranted_walk hctx hwalk)
    -- A subscriber that is too deep is refused for another limit.
    refine keeps_forM _ fun s _ => keeps_unlessStopped (keeps_modify fun r hr => hr.fail ?_)
    rintro bound hcause
    cases hcause
  | succ levels ih =>
    refine keeps_runPipeline_of hn RunContext.closed_univ (fun _ _ _ value => ?_) trivial seed
      fun hr _ hwalk => hr.fail (Step.warranted_walk hctx hwalk)
    refine keeps_forM _ fun s _ => keeps_unlessStopped ?_
    exact keeps_notifySubscriber hn (ih s.root (some value))

/-- A whole run takes note of warranted failures only. -/
theorem Engine.run_warranted {engine : Engine σ} {program : Program} {anchors : Nat → Nat}
    (hctx : (engine.context program).Planned anchors) {s : σ} {finished : Finished σ}
    (hrun : engine.run program s = .ok finished) :
    (∀ f ∈ finished.report.errors, ∃ k, f.Warranted (engine.context program) k) ∧
    ∀ k f, .failed k f ∈ finished.events → f.Warranted (engine.context program) k := by
  have hruns : ∀ root seed, (Exec.execute (engine.context program) root seed).Keeps (fun _ => True)
      (Run.Warranted (engine.context program)) :=
    fun root seed => Exec.keeps_runNested_warranted hctx _ root seed
  have hstart : ∀ initial, Exec.initialPools (engine.context program) = .ok initial →
      (startState (engine.context program) initial s).Warranted (engine.context program) :=
    fun _ _ => ⟨fun f hf => absurd hf (Array.not_mem_empty f),
      fun k f hf => absurd hf (Array.not_mem_empty _)⟩
  have hends := Engine.run_ends hstart (fun _ _ => trivial) fun initial =>
    Exec.keeps_runAll (noting_warranted _) initial (fun root _ => hruns root none)
      (fun root _ => hruns root none) fun s _ value => hruns s.root (some value)
  rw [hrun] at hends
  obtain ⟨r, hr, rfl⟩ := hends
  exact ⟨fun f hf => hr.errors f (Array.mem_toList_iff.1 hf),
    fun k f hf => hr.events k f (Array.mem_toList_iff.1 hf)⟩

/-- Every run of a pipeline of a parsed program goes forward only: the ids at which it counts a
step increase, and all of them are in the pipeline of its root. These are the steps that it
counts, beside those of the subscribers that it notifies. So it counts no more steps than its
pipeline has nodes, and a pipeline that fails by the limit of steps has more nodes than the
limit. -/
theorem Engine.walks_forward (engine : Engine σ) (source : String) (ctx : RunContext σ)
    (hctx : ctx = engine.context (.parse source)) :
    (∀ notify root seed r,
      (Step.arrivals ctx notify ctx.config.maxSteps root {} seed r).Pairwise (· < ·) ∧
      (∀ id ∈ Step.arrivals ctx notify ctx.config.maxSteps root {} seed r,
        ctx.program.pipeline? id = some (ctx.pipelineOf root)) ∧
      (Step.arrivals ctx notify ctx.config.maxSteps root {} seed r).length ≤
        (ctx.program.nodesOf (ctx.pipelineOf root)).length ∧
      (CountsNone notify → ∀ result r',
        (Step.walk ctx notify ctx.config.maxSteps root {} seed).outcome r = (.ok result, r') →
        r'.metrics.steps = r.metrics.steps +
          (Step.arrivals ctx notify ctx.config.maxSteps root {} seed r).length)) ∧
    ∀ s finished, engine.run (.parse source) s = .ok finished →
      (∀ f ∈ finished.report.errors, ∀ bound, f.cause = .limitExceeded .pipelineSteps bound →
        ∃ k, f.location.pipeline = some k ∧
          ctx.config.maxSteps < (ctx.program.nodesOf k).length) ∧
      ∀ k f bound, .failed k f ∈ finished.events →
        f.cause = .limitExceeded .pipelineSteps bound →
          ctx.config.maxSteps < (ctx.program.nodesOf k).length := by
  obtain ⟨anchors, hplanned⟩ := engine.planned_parse source
  rw [← hctx] at hplanned
  refine ⟨fun notify root seed r => ?_, fun s finished hrun => ?_⟩
  · have hwalks := Step.walks ctx notify ctx.config.maxSteps root {} seed r
    have hpipeline := hwalks.pipeline?_eq hplanned
    refine ⟨hwalks.increasing hplanned, hpipeline, hwalks.length_le hplanned hpipeline, ?_⟩
    intro hcounts result r' hout
    rw [hout] at hwalks
    exact hwalks.steps_eq hcounts rfl
  · rw [hctx] at hplanned ⊢
    obtain ⟨herrors, hevents⟩ := Engine.run_warranted hplanned hrun
    refine ⟨fun f hf bound hcause => ?_, fun k f bound hf hcause => ?_⟩
    · obtain ⟨k, hwarranted⟩ := herrors f hf
      obtain ⟨rfl, hlocation, hlt⟩ := hwarranted bound hcause
      exact ⟨k, hlocation, hlt⟩
    · obtain ⟨rfl, -, hlt⟩ := hevents k f hf bound hcause
      exact hlt

/-- A pipeline of four nodes, of which a branch is passed over. -/
def passedOverSource : String :=
  "~ 0\nTRUE_FLOW | add(1)\n| add(2)"

set_option maxRecDepth 4000 in
/-- With three steps the walk goes from the branch to the node behind its scope, and is done; with
two it fails there, and the pipeline has four nodes. -/
theorem Engine.walks_forward_passedOver :
    (∀ r : Run (Session Unit), (Step.arrivals ((Session.engine { maxSteps := 3 } []).context
      (.parse passedOverSource)) (fun _ _ => pure ()) 3 0 {} none r).Pairwise (· < ·)) ∧
    ∃ finished, (Program.parse passedOverSource).runWith { maxSteps := 2 } = .ok finished ∧
      ∃ f ∈ finished.report.errors, f.cause = .limitExceeded .pipelineSteps 2 ∧
        ∃ k, f.location.pipeline = some k ∧
          2 < ((Program.parse passedOverSource).nodesOf k).length := by
  let three : Engine (Session Unit) := Session.engine { maxSteps := 3 } []
  refine ⟨fun r => ((Engine.walks_forward three passedOverSource _ rfl).1 _ 0 none r).1, ?_⟩
  have hends : (match (Program.parse passedOverSource).runWith { maxSteps := 2 } with
      | .ok finished => finished.report.errors.map (·.cause)
      | .error _ => []) = [.limitExceeded .pipelineSteps 2] := by decide +kernel
  match hrun : (Program.parse passedOverSource).runWith { maxSteps := 2 } with
  | .error halted =>
    rw [hrun] at hends
    cases hends
  | .ok finished =>
    rw [hrun] at hends
    obtain ⟨f, hf, hcause⟩ := List.mem_map.1 (hends ▸ List.mem_singleton_self _)
    refine ⟨finished, rfl, f, hf, hcause, ?_⟩
    exact ((Engine.walks_forward (Session.engine { maxSteps := 2 } []) passedOverSource _ rfl).2 _
      finished hrun).1 f hf 2 hcause

end Sluice
