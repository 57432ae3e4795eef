/-
  Sluice.Proofs.Run.Apart

  A pipeline that writes no pool stands apart from the others. Whatever it does, and however it
  ends, it leaves the pools alone, and the host in a state from which the answers are the same.
  All that is left of it are entries of its own: lines it printed, warnings it gave, and its
  failure if it failed. So the run without it goes beside the run with it from there on, and its
  report is the other report without these entries.
-/

import Sluice.Proofs.Run.Beside
import Sluice.Proofs.Run.Feedback

namespace Sluice

variable {σ τ : Type}

-- ============================================================================
-- A pipeline on its own
-- ============================================================================

/-- A run whose pools are those of an earlier moment, and what it has said since. -/
structure Run.Since (P : σ → Prop) (r earlier : Run σ) : Prop where
  state : P r.state
  pools : r.pools = earlier.pools
  stopped : r.stopped = false
  told : ∃ own, r.log = earlier.log ++ own

namespace Run.Since

variable {P : σ → Prop} {r earlier : Run σ}

/-- Whatever a run says more, it leaves the pools alone. -/
theorem more (h : r.Since P earlier) {t : Run σ} (hstate : P t.state) (hpools : t.pools = r.pools)
    (hstopped : t.stopped = r.stopped) {said : Log} (hsaid : t.log = r.log ++ said) :
    t.Since P earlier := by
  obtain ⟨own, hown⟩ := h.told
  refine ⟨hstate, hpools.trans h.pools, hstopped.trans h.stopped, own ++ said, ?_⟩
  rw [hsaid, hown, Log.append_assoc]

theorem tried (h : r.Since P earlier) (line : Nat) (name : String) (calls : Nat)
    (warnings : List String) {s : σ} (hs : P s) :
    Run.Since P { r.tried line name calls warnings with state := s } earlier :=
  h.more hs rfl rfl (r.log_tried line name calls warnings)

theorem note (h : r.Since P earlier) (n : Note)
    (hn : ∀ f ∈ n.log.errors, f.cause ≠ .cancelled) : (r.note n).Since P earlier := by
  refine h.more ?_ (r.pools_note n) ?_ (r.log_note n)
  · rw [Run.state_note]
    exact h.state
  · have hnone : (n.log.errors.any fun f => f.cause == .cancelled) = false := by
      rw [List.any_eq_false]
      exact fun f hf hcause => hn f hf (beq_iff_eq.1 hcause)
    rw [Run.stopped_note, hnone, Bool.or_false]

end Run.Since

section

variable {ctx : RunContext σ} {P : σ → Prop}

/-- Between two writes a walk leaves the pools alone. -/
theorem walkable_since (hhost : ctx.host.NeverCancelled P) (earlier : Run σ) :
    Walkable ctx (Operator.StaysIn P) (· ≠ .cancelled) (fun _ => True)
      fun r => r.Since P earlier where
  refusal e h := by cases e <;> cases h
  warn message hr := hr.note (.warned message) (List.forall_mem_nil _)
  retry hr := hr.note .retried (List.forall_mem_nil _)
  resolve name profile hr := ⟨hhost.resolve name profile _ hr.state, hr.pools, hr.stopped, hr.told⟩
  found name profile op hr h := hhost.found name profile _ op hr.state h
  attempt {r r' node op name depth input args result} hop hr h := by
    rw [Step.outcome_attempt_eq] at h
    cases h
    have hstate := hhost.invoke_state hop r.pools depth input args r.state hr.state
    exact ⟨fun _ => hr.tried _ _ _ _ (hhost.record name op.tier _ _ hstate), fun _ _ => trivial⟩
  print pipeline text hr := hr.note (.printed pipeline text) (List.forall_mem_nil _)
  render pipeline value hr := hr.note (.rendered pipeline value) (List.forall_mem_nil _)
  step hr := hr.note .stepped (List.forall_mem_nil _)
  cancelled {r} hr hcancelled := by
    rw [hhost.running r.state hr.state] at hcancelled
    cases hcancelled
  exhausted h := by cases h

variable {nodes : NodeId → Prop}

/-- A pipeline over nodes that write no pool leaves the pools alone, however it ends. -/
theorem Exec.keeps_since (hhost : ctx.host.NeverCancelled P) (hclosed : ctx.Closed nodes)
    (hwriteless : ∀ {id node pool}, nodes id → ctx.program.node? id = some node →
      node.kind ≠ .poolWrite pool) {root : NodeId} (hroot : nodes root) (seed : Option Value)
    (earlier : Run σ) :
    (execute ctx root seed).Keeps (fun _ => True) fun r => r.Since P earlier := by
  have hpipeline : ∀ notify, (runPipeline ctx notify root seed).Keeps (fun _ => True)
      fun r => r.Since P earlier := by
    intro notify r hr
    have hwalk : Step.Ends (· ≠ .cancelled) (fun _ => True) (fun r => r.Since P earlier)
        ((Step.walk ctx notify ctx.config.maxSteps root {} seed).outcome
          (r.started (ctx.pipelineOf root) root)) :=
      Step.keeps_walk (walkable_since hhost earlier) hclosed
        (fun hid hnode hkind _ => absurd hkind (hwriteless hid hnode)) ctx.config.maxSteps hroot {}
        seed _ (hr.note (.started (ctx.pipelineOf root) root) (List.forall_mem_nil _))
    rw [outcome_runPipeline]
    match hout : (Step.walk ctx notify ctx.config.maxSteps root {} seed).outcome
      (r.started (ctx.pipelineOf root) root) with
    | (.error h, r') => trivial
    | (.ok (.ok value), r') =>
      rw [hout] at hwalk
      exact hwalk.note (.completed (ctx.pipelineOf root) value) (List.forall_mem_nil _)
    | (.ok (.error failure), r') =>
      rw [hout] at hwalk
      exact hwalk.1.note (.failed (ctx.pipelineOf root) failure)
        (List.forall_mem_singleton.2 hwalk.2)
  -- How many levels of subscribers there could be makes no difference.
  unfold execute
  cases ctx.config.maxSubscriberDepth with
  | zero => exact hpipeline _
  | succ levels => exact hpipeline _

-- ============================================================================
-- With and without the pipeline
-- ============================================================================

/-- A finite source whose pipeline writes no pool leaves nothing but entries of its own. -/
theorem RunContext.runEach_since (hhost : ctx.host.NeverCancelled P) (hclosed : ctx.Closed nodes)
    (hwriteless : ∀ {id node pool}, nodes id → ctx.program.node? id = some node →
      node.kind ≠ .poolWrite pool) {a : NodeId} (ha : nodes a) {r t : Run σ} (hr : r.Running P)
    (h : (Task.runEach ctx [.finite a]).outcome r = (.ok (), t)) : t.Since P r := by
  have hkeeps : (Task.runEach ctx [.finite a]).Keeps (fun _ => True) fun t => t.Since P r := by
    refine Exec.keeps_forM _ fun task htask => Exec.keeps_unlessStopped ?_
    obtain rfl := List.mem_singleton.1 htask
    exact Exec.keeps_since hhost hclosed hwriteless ha none r
  have hsince := hkeeps r ⟨hr.state, rfl, hr.stopped, {}, (Log.append_empty _).symm⟩
  rw [h] at hsince
  exact hsince

/-- A run with a pipeline that writes no pool, and the run without it: the pools are the same, and
what the second has to say is what the first has, without the entries of the pipeline. -/
theorem RunContext.run_without (hhost : ctx.host.Functional P) (hclosed : ctx.Closed nodes)
    (hwriteless : ∀ {id node pool}, nodes id → ctx.program.node? id = some node →
      node.kind ≠ .poolWrite pool) {pre post : List NodeId} {a : NodeId}
    (hroots : ctx.plan.finiteRoots = pre ++ a :: post) (ha : nodes a) {s : σ} (hs : P s)
    {full : Engine.Finished σ} (hfull : ctx.run s = .ok full) :
    ∃ initial reduced own rest, Exec.initialPools ctx = .ok initial ∧
      (ctx.withRoots (pre ++ post)).run s = .ok reduced ∧
      reduced.report.pools = full.report.pools ∧
      (ctx.afterRoots initial s (pre ++ [a])).log = (ctx.afterRoots initial s pre).log ++ own ∧
      full.report.log = (ctx.afterRoots initial s pre).log ++ own ++ rest ∧
      reduced.report.log = (ctx.afterRoots initial s pre).log ++ rest := by
  have hwith : ctx.withRoots (pre ++ [a] ++ post) = ctx := by
    refine withRoots_eq_self ?_
    rw [hroots, List.append_assoc, List.singleton_append]
  rw [← hwith] at hfull
  obtain ⟨initial, r, t, u, hinitial, hpre, hmid, hpost, hreport⟩ :=
    run_withRoots_ok.1 ⟨full, hfull, rfl⟩
  have hrunning := running_of_runEach hhost.toNeverCancelled
    (running_loaded hhost.toNeverCancelled hinitial hs) hpre
  have hsince := runEach_since hhost.toNeverCancelled hclosed hwriteless ha hrunning hmid
  obtain ⟨own, hown⟩ := hsince.told
  -- The rest of the run goes on from the start of the pipeline as it does from its end.
  have hbeside : Run.Beside P t.log r.log t r :=
    .start ⟨hsince.state, hrunning.state⟩ hsince.pools (hsince.stopped.trans hrunning.stopped.symm)
  obtain ⟨u', rest, hpost', hpools, hlog, hlog'⟩ := finish_beside hhost hbeside hpost
  have hnothing : (Task.runEach ctx (List.map .finite [])).outcome r = (.ok (), r) := rfl
  obtain ⟨reduced, hreduced, hreport'⟩ :=
    run_withRoots_ok.2 ⟨initial, r, r, u', hinitial, hpre, hnothing, hpost', rfl⟩
  have hbefore : ctx.afterRoots initial s pre = r := congrArg Prod.snd hpre
  have hafter : ctx.afterRoots initial s (pre ++ [a]) = t := by
    unfold afterRoots
    rw [List.map_append]
    exact congrArg Prod.snd (Task.runEach_append_ok.2 ⟨r, hpre, hmid⟩)
  rw [List.append_nil] at hreduced
  refine ⟨initial, reduced, own, rest, hinitial, hreduced, ?_, ?_, ?_, ?_⟩
  · rw [hreport', hpools, hreport]
  · rw [hafter, hbefore, hown]
  · rw [hbefore, ← hown, ← hreport, hlog]
  · rw [hbefore, hreport', hlog']

end

/-- Data flows from one node to another within a pipeline. -/
def Program.Flows (p : Program) (i j : NodeId) : Prop :=
  j ∈ p.pipeTargets i

/-- No pool write is reached from some nodes that data does not leave and of which none is one. -/
theorem Program.writeless_of_part {p : Program} {ids : List NodeId} {a : NodeId} (ha : a ∈ ids)
    (hflows : ∀ i ∈ ids, ∀ j ∈ p.pipeTargets i, j ∈ ids)
    (hwrites : ∀ i ∈ ids, ∀ node ∈ p.node? i, node.kind.label ≠ "pool_write") {id : NodeId}
    {node : Node} {pool : String} (hid : Relation.ReflTransGen p.Flows a id)
    (hnode : p.node? id = some node) : node.kind ≠ .poolWrite pool := by
  intro hkind
  refine hwrites id ?_ node hnode (congrArg NodeKind.label hkind)
  clear hnode
  induction hid with
  | refl => exact ha
  | tail _ hflow ih => exact hflows _ ih _ hflow

/-- A pipeline of a finite source that leads to no pool write cannot influence the others. The
program may be any graph whose nodes are numbered by their places. With the breaker off, without
cancellation, with operators that only ask and scripts that look at no clock, the run that leaves
the pipeline out finishes if the whole run does, with the same pools; and where the whole run has
what the pipeline contributed, between its start and its end, the other has nothing, and all else
is the same. -/
theorem Engine.writeless_pipeline_stands_apart (build : Build τ) (config : Config)
    (htimeless : (build.tiers config).Timeless) {operators : List (Operator (Session τ))}
    (hoperators : ∀ op ∈ operators, op.OnlyAsks)
    {program : Program} (hindexed : program.Indexed) {s : Session τ}
    (hoff : s.registry.breaker.settings.enabled = false) (hrunning : s.cancelled = false)
    {pre post : List NodeId} {a : NodeId}
    (hroots : (Plan.ofProgram program).finiteRoots = pre ++ a :: post)
    (hwriteless : ∀ id node pool, Relation.ReflTransGen program.Flows a id →
      program.node? id = some node → node.kind ≠ .poolWrite pool)
    {full : Finished (Session τ)}
    (hfull : (Session.engine config operators build).run program s = .ok full) :
    let ctx := (Session.engine config operators build).context program
    ∃ initial reduced own rest, Exec.initialPools ctx = .ok initial ∧
      (ctx.withRoots (pre ++ post)).run s = .ok reduced ∧
      reduced.report.pools = full.report.pools ∧
      (ctx.afterRoots initial s (pre ++ [a])).log = (ctx.afterRoots initial s pre).log ++ own ∧
      full.report.log = (ctx.afterRoots initial s pre).log ++ own ++ rest ∧
      reduced.report.log = (ctx.afterRoots initial s pre).log ++ rest := by
  intro ctx
  rw [run_eq_context] at hfull
  have hhost : ctx.host.Functional s.Alike := Session.functional hoperators htimeless hoff hrunning
  have hclosed : ctx.Closed (Relation.ReflTransGen program.Flows a) :=
    Program.closed_of_flow hindexed rfl rfl fun hid htarget => hid.tail htarget
  exact RunContext.run_without hhost hclosed (hwriteless _ _ _) hroots .refl ⟨.refl _, rfl⟩ hfull

/-- An operator that tells the value of a pool. -/
def tellOperator : Operator (Session Unit) where
  name := "tell"
  arity := .any
  tier := .core
  library := "own"
  body _ _ := .readPool "p" fun value => .warn "told" (.finish (.ok (value.getD .null)))

theorem tellOperator_onlyAsks : tellOperator.OnlyAsks :=
  fun _ _ _ => trivial

/-- Between two writes to a pool, a pipeline that reads it, warns and fails. -/
def tellingSource : String :=
  "p -> print\n~ 2 | to_pool(p)\n~ 1 | tell | nope\n~ 3 | to_pool(p)"

/-- The surroundings of a run of the telling program. -/
def tellingContext : RunContext (Session Unit) :=
  (Session.engine Config.unbroken [tellOperator]).context (.parse tellingSource)

set_option maxRecDepth 4000 in
/-- Without the pipeline in the middle its warning and its failure are missing. -/
theorem Engine.telling_stands_apart :
    ∃ full initial reduced own rest,
      (Session.engine Config.unbroken [tellOperator]).run (.parse tellingSource)
        (.ofConfig Config.unbroken ()) = .ok full ∧
      full.report.output = ["2", "3", "null"] ∧ full.report.errors.length = 1 ∧
      Exec.initialPools tellingContext = .ok initial ∧
      (tellingContext.withRoots ([2] ++ [7])).run (.ofConfig Config.unbroken ()) = .ok reduced ∧
      reduced.report.pools = full.report.pools ∧
      (tellingContext.afterRoots initial (.ofConfig Config.unbroken ()) ([2] ++ [4])).log =
        (tellingContext.afterRoots initial (.ofConfig Config.unbroken ()) [2]).log ++ own ∧
      full.report.log =
        (tellingContext.afterRoots initial (.ofConfig Config.unbroken ()) [2]).log ++ own ++ rest ∧
      reduced.report.log =
        (tellingContext.afterRoots initial (.ofConfig Config.unbroken ()) [2]).log ++ rest := by
  have hends : (match (Session.engine Config.unbroken [tellOperator]).run (.parse tellingSource)
        (.ofConfig Config.unbroken ()) with
      | .ok full => decide (full.report.output = ["2", "3", "null"] ∧
          full.report.errors.length = 1)
      | .error _ => false) = true := by decide +kernel
  obtain ⟨hroots, hflows, hwrites⟩ :
      (Plan.ofProgram (.parse tellingSource)).finiteRoots = [2] ++ 4 :: [7] ∧
      (∀ i ∈ [4, 5, 6], ∀ j ∈ (Program.parse tellingSource).pipeTargets i, j ∈ [4, 5, 6]) ∧
      ∀ i ∈ [4, 5, 6], ∀ node ∈ (Program.parse tellingSource).node? i,
        node.kind.label ≠ "pool_write" := by
    decide +kernel
  have hwriteless : ∀ id node pool,
      Relation.ReflTransGen (Program.parse tellingSource).Flows 4 id →
      (Program.parse tellingSource).node? id = some node → node.kind ≠ .poolWrite pool :=
    fun _ _ _ => Program.writeless_of_part List.mem_cons_self hflows hwrites
  match hfull : (Session.engine Config.unbroken [tellOperator]).run (.parse tellingSource)
      (.ofConfig Config.unbroken ()) with
  | .error halted =>
    rw [hfull] at hends
    cases hends
  | .ok full =>
    rw [hfull] at hends
    obtain ⟨houtput, herrors⟩ := of_decide_eq_true hends
    obtain ⟨anchors, hlayout⟩ := Program.parse_layout tellingSource
    obtain ⟨initial, reduced, own, rest, h⟩ :=
      writeless_pipeline_stands_apart {} Config.unbroken
        (Build.timeless_tiers Script.plain_timeless _)
        (List.forall_mem_singleton.2 tellOperator_onlyAsks) hlayout.indexed rfl rfl hroots
        hwriteless hfull
    exact ⟨full, initial, reduced, own, rest, rfl, houtput, herrors, h⟩

theorem completed_of_map {ended : Except ε α} {f : α → β} {b : β}
    (h : ended.toOption.map f = some b) : ∃ a, ended = .ok a ∧ f a = b := by
  cases ended with
  | error e => cases h
  | ok a => exact ⟨a, rfl, Option.some.inj h⟩

theorem halted_of_not_isOk {ended : Except ε α} (h : ended.isOk = false) :
    ∃ e, ended = .error e := by
  cases ended with
  | error e => exact ⟨e, rfl⟩
  | ok a => cases h

/-- A graph whose second node bears the id of the third, which is another branch. From the source
data flows to the second node only. -/
def misnumbered : Program where
  nodes :=
    #[⟨⟨.finiteSource "1", "~", [], "~ 1"⟩, 0, 1, false, 0, none⟩,
      ⟨⟨.branch false, "FALSE_FLOW", [], "FALSE_FLOW"⟩, 2, 2, false, 0, none⟩,
      ⟨⟨.branch true, "TRUE_FLOW", [], "TRUE_FLOW"⟩, 2, 3, false, 1, none⟩,
      ⟨⟨.poolWrite "p", "to_pool", [], "to_pool(p)"⟩, 3, 3, false, 1, none⟩]
  connections := #[⟨0, 0, 1, .pipe⟩, ⟨1, 2, 3, .pipe⟩]
  pools := [("p", ⟨"p", "0", 1, false⟩)]
  pipelineCount := 2

/-- A source that divides by far too large a number, and another one. -/
def overflowingSource : String :=
  "~ 9007199254740881 | lcm(9007199254740992)\n~ 2 | print"

/-- Elsewhere a pipeline without pool writes does reach the others. Where ids are not places it can
jump to the join of a branch that it never came to, and write there. And where one of its operators
panics there is no report at all, while the run without the pipeline has one. -/
theorem Engine.writeless_pipeline_interferes :
    let engine : Engine (Session Unit) := Session.engine Config.unbroken []
    let start : Session Unit := .ofConfig Config.unbroken ()
    (∃ full reduced,
      (Plan.ofProgram misnumbered).finiteRoots = [] ++ 0 :: [] ∧
      (∀ id node pool, Relation.ReflTransGen misnumbered.Flows 0 id →
        misnumbered.node? id = some node → node.kind ≠ .poolWrite pool) ∧
      engine.run misnumbered start = .ok full ∧
      ((engine.context misnumbered).withRoots ([] ++ [])).run start = .ok reduced ∧
      full.report.pools.contents.map (·.updates) = [1] ∧
      reduced.report.pools.contents.map (·.updates) = [0]) ∧
    ∃ halted reduced,
      (Plan.ofProgram (.parse overflowingSource)).finiteRoots = [] ++ 0 :: [2] ∧
      (∀ id node pool, Relation.ReflTransGen (Program.parse overflowingSource).Flows 0 id →
        (Program.parse overflowingSource).node? id = some node → node.kind ≠ .poolWrite pool) ∧
      engine.run (.parse overflowingSource) start = .error halted ∧
      ((engine.context (.parse overflowingSource)).withRoots ([] ++ [2])).run start =
        .ok reduced ∧
      reduced.report.output = ["2"] := by
  intro engine start
  refine ⟨?_, ?_⟩
  · obtain ⟨hflows, hwrites⟩ : (∀ i ∈ [0, 1], ∀ j ∈ misnumbered.pipeTargets i, j ∈ [0, 1]) ∧
        ∀ i ∈ [0, 1], ∀ node ∈ misnumbered.node? i, node.kind.label ≠ "pool_write" := by
      decide +kernel
    have hfull : (engine.run misnumbered start).toOption.map
        (·.report.pools.contents.map (·.updates)) = some [1] := by decide +kernel
    have hreduced : (((engine.context misnumbered).withRoots ([] ++ [])).run start).toOption.map
        (·.report.pools.contents.map (·.updates)) = some [0] := by decide +kernel
    obtain ⟨full, hfull, hwritten⟩ := completed_of_map hfull
    obtain ⟨reduced, hreduced, hunwritten⟩ := completed_of_map hreduced
    exact ⟨full, reduced, rfl,
      fun _ _ _ => Program.writeless_of_part List.mem_cons_self hflows hwrites, hfull, hreduced,
      hwritten, hunwritten⟩
  · obtain ⟨hroots, hflows, hwrites⟩ :
        (Plan.ofProgram (.parse overflowingSource)).finiteRoots = [] ++ 0 :: [2] ∧
        (∀ i ∈ [0, 1], ∀ j ∈ (Program.parse overflowingSource).pipeTargets i, j ∈ [0, 1]) ∧
        ∀ i ∈ [0, 1], ∀ node ∈ (Program.parse overflowingSource).node? i,
          node.kind.label ≠ "pool_write" := by
      decide +kernel
    have hends : (engine.run (.parse overflowingSource) start).isOk = false := by
      decide +kernel
    have hreduced : (((engine.context (.parse overflowingSource)).withRoots
        ([] ++ [2])).run start).toOption.map (·.report.output) = some ["2"] := by
      decide +kernel
    obtain ⟨halted, hhalted⟩ := halted_of_not_isOk hends
    obtain ⟨reduced, hreduced, houtput⟩ := completed_of_map hreduced
    exact ⟨halted, reduced, hroots,
      fun _ _ _ => Program.writeless_of_part List.mem_cons_self hflows hwrites, hhalted, hreduced,
      houtput⟩

end Sluice
