/-
  Sluice.Proofs.Run.Events

  What a program tells is a word of the grammar of runs, whatever fails in it. No failure,
  refusal or missing branch leaves a sibling out, since the grammar has a place for each of
  them and a run fills it.

  The induction is on the levels of subscribers: a pipeline with no level below it refuses its
  subscribers, and the fans of every other level are made of the runs of the next.
-/

import Sluice.Engine
import Sluice.Proofs.Plan.Search
import Sluice.Proofs.Program.Layout
import Sluice.Proofs.Run.Sending
import Sluice.Proofs.Run.Telling

namespace Sluice

variable {σ : Type}

section

variable {ctx : RunContext σ} {P : σ → Prop} {halts : Halt → Prop} {depth : Nat}

-- ============================================================================
-- Runs of pipelines
-- ============================================================================

/-- A run of a pipeline tells its start, its items and its end. -/
theorem speaks_runPipeline (ho : Observed ctx P halts) {notify : String → Value → Exec σ Unit}
    (hfan : Fans ctx P halts depth notify) (root : NodeId) (seed : Option Value) :
    (Exec.runPipeline ctx notify root seed).Speaks P halts fun word =>
      ∃ items last, ItemsWord ctx depth items ∧ last.Closes (ctx.pipelineOf root) ∧
        word = .started (ctx.pipelineOf root) root :: (items ++ [last]) := by
  intro r hr
  have hstarted : Telling ctx P halts depth
      (r.events.toList ++ [.started (ctx.pipelineOf root) root])
      (r.started (ctx.pipelineOf root) root) := by
    refine ⟨⟨hr.state, hr.running, hr.room⟩, [], .nil, ?_⟩
    show (r.events.push _).toList = _
    rw [Array.toList_push, List.append_nil]
  have hwalk := keeps_walk ho hfan ctx.config.maxSteps root {} seed _ hstarted
  rw [Exec.outcome_runPipeline]
  match hout : (Step.walk ctx notify ctx.config.maxSteps root {} seed).outcome
    (r.started (ctx.pipelineOf root) root) with
  | (.error h, r') =>
    rw [hout] at hwalk
    exact hwalk
  | (.ok (.ok v), r') =>
    rw [hout] at hwalk
    have hr' : Telling ctx P halts depth _ r' := hwalk
    obtain ⟨items, hitems, heq⟩ := hr'.told
    refine ⟨⟨hr'.state, hr'.running, hr'.room⟩, _, ⟨items, _, hitems, .completed v, rfl⟩, ?_⟩
    show (r'.events.push _).toList = _
    rw [Array.toList_push, heq]
    simp
  | (.ok (.error f), r') =>
    rw [hout] at hwalk
    obtain ⟨hr', hcause⟩ : Telling ctx P halts depth _ r' ∧ f.cause ≠ .cancelled := hwalk
    obtain ⟨items, hitems, heq⟩ := hr'.told
    -- Only a cancellation would stop the run here.
    have hrunning : (r'.fail (ctx.pipelineOf root) f).stopped = false := by
      show (r'.stopped || f.cause == .cancelled) = false
      rw [hr'.running, Bool.false_or, beq_eq_false_iff_ne]
      exact hcause
    refine ⟨⟨hr'.state, hrunning, hr'.room⟩, _, ⟨items, _, hitems, .failed f, rfl⟩, ?_⟩
    show (r'.events.push _).toList = _
    rw [Array.toList_push, heq]
    simp

theorem speaks_unlessStopped {language : List Event → Prop} {m : Exec σ Unit}
    (h : m.Speaks P halts language) : (Exec.unlessStopped m).Speaks P halts language := by
  intro r hr
  rw [Exec.outcome_unlessStopped, hr.running]
  exact h r hr

/-- A word of one language and then a word of another. -/
def Joined (first second : List Event → Prop) (word : List Event) : Prop :=
  ∃ v w, first v ∧ second w ∧ word = v ++ w

theorem Exec.Speaks.mono {small large : List Event → Prop} {m : Exec σ Unit}
    (h : m.Speaks P halts small) (hsub : ∀ word, small word → large word) :
    m.Speaks P halts large := by
  intro r hr
  have hm := h r hr
  match hout : m.outcome r with
  | (.error h', r') =>
    rw [hout] at hm
    exact hm
  | (.ok _, r') =>
    rw [hout] at hm
    obtain ⟨hr', word, hword, hevents⟩ := hm
    exact ⟨hr', word, hsub word hword, hevents⟩

/-- Parts one after the other tell their words one after the other. -/
theorem speaks_bind {first second : List Event → Prop} {m : Exec σ Unit}
    {f : Unit → Exec σ Unit} (hm : m.Speaks P halts first) (hf : (f ()).Speaks P halts second) :
    (m >>= f).Speaks P halts (Joined first second) := by
  intro r hr
  have h := hm r hr
  rw [Exec.outcome_bind]
  match hout : m.outcome r with
  | (.error h', r') =>
    rw [hout] at h
    exact h
  | (.ok _, r') =>
    rw [hout] at h
    obtain ⟨hr', v, hv, hevents⟩ := h
    have h' := hf r' hr'
    show Exec.Spoke P halts _ _ ((f ()).outcome r')
    match hout' : (f ()).outcome r' with
    | (.error h'', r'') =>
      rw [hout'] at h'
      exact h'
    | (.ok _, r'') =>
      rw [hout'] at h'
      obtain ⟨hr'', w, hw, hevents'⟩ := h'
      refine ⟨hr'', v ++ w, ⟨v, w, hv, hw, rfl⟩, ?_⟩
      rw [hevents', hevents, List.append_assoc]

theorem speaks_forM {α : Type} {word : α → List Event → Prop} {f : α → Exec σ Unit}
    (h : ∀ a, (f a).Speaks P halts (word a)) (as : List α) :
    (as.forM f).Speaks P halts (Each word as) := by
  induction as with
  | nil =>
    intro r hr
    exact ⟨hr, [], .nil, (List.append_nil _).symm⟩
  | cons a rest ih =>
    show (f a >>= fun _ => rest.forM f).Speaks P halts _
    refine (speaks_bind (h a) ih).mono ?_
    rintro word ⟨v, w, hv, hw, rfl⟩
    exact .cons hv hw

/-- Counting a notification tells nothing. -/
theorem speaks_notifySubscriber {language : List Event → Prop}
    {run : NodeId → Option Value → Exec σ Unit} {value : Value} {s : Subscription}
    (h : (run s.root (some value)).Speaks P halts language) :
    (Exec.notifySubscriber run value s).Speaks P halts language := by
  intro r hr
  exact h (r.count fun m => { m with subscriberNotifications := m.subscriberNotifications + 1 })
    ⟨hr.state, hr.running, hr.room⟩

/-- A refused subscriber tells its failure, and stops nothing. -/
theorem speaks_refuseSubscriber (pool : String) (s : Subscription) :
    (Exec.refuseSubscriber ctx pool s).Speaks P halts fun word =>
      ∃ failure : Failure,
        failure.cause = .limitExceeded .subscriberDepth ctx.config.maxSubscriberDepth ∧
          word = [.failed s.pipeline failure] := by
  intro r hr
  refine ⟨⟨hr.state, ?_, hr.room⟩, _, ⟨_, rfl, rfl⟩, Array.toList_push⟩
  show (r.stopped || _) = false
  rw [hr.running]
  rfl

/-- Subscribers that run give a fan. -/
theorem FanWord.of_runs (hdepth : depth + 1 ≤ ctx.config.maxSubscriberDepth) {pool : String}
    {value : Value} {subscriptions : List Subscription} {word : List Event}
    (h : Each (fun s => RunWord ctx (depth + 1) s.root (some value)) subscriptions word) :
    FanWord ctx depth pool value subscriptions word := by
  induction h with
  | nil => exact .nil
  | cons hrun _ ih => exact .run hdepth hrun ih

/-- Subscribers that are all refused give a fan. -/
theorem FanWord.of_refusals (hdepth : ctx.config.maxSubscriberDepth < depth + 1) {pool : String}
    {value : Value} {subscriptions : List Subscription} {word : List Event}
    (h : Each (fun (s : Subscription) word => ∃ failure : Failure,
        failure.cause = .limitExceeded .subscriberDepth ctx.config.maxSubscriberDepth ∧
          word = [.failed s.pipeline failure]) subscriptions word) :
    FanWord ctx depth pool value subscriptions word := by
  induction h with
  | nil => exact .nil
  | cons hrefused _ ih =>
    obtain ⟨failure, hcause, rfl⟩ := hrefused
    exact .refuse hdepth hcause ih

/-- What a part of a run tells in a calm state, it tells. -/
theorem Exec.Speaks.tells {language : List Event → Prop} {m : Exec σ Unit}
    (h : m.Speaks P halts language) :
    m.Speaks P halts fun word => language word ∧ m.Tells word := by
  intro r hr
  have hm := h r hr
  match hout : m.outcome r with
  | (.error h', r') =>
    rw [hout] at hm
    exact hm
  | (.ok _, r') =>
    rw [hout] at hm
    obtain ⟨hr', word, hword, hevents⟩ := hm
    exact ⟨hr', word, ⟨hword, r, r', hout, hevents⟩, hevents⟩

/-- A run whose writes tell their fans is a run of the grammar. -/
theorem speaks_of_fans (ho : Observed ctx P halts) {levels : Nat} {root : NodeId}
    {seed : Option Value} {notify : String → Value → Exec σ Unit}
    (hlevels : depth + levels = ctx.config.maxSubscriberDepth)
    (heq : Exec.runNested ctx levels root seed = Exec.runPipeline ctx notify root seed)
    (hfan : Fans ctx P halts depth notify) :
    (Exec.runNested ctx levels root seed).Speaks P halts (RunWord ctx depth root seed) := by
  have hleft : ctx.config.maxSubscriberDepth - depth = levels := by omega
  have hrun := speaks_runPipeline ho hfan root seed
  rw [← heq] at hrun
  refine hrun.tells.mono ?_
  rintro word ⟨⟨items, last, hitems, hlast, rfl⟩, htells⟩
  exact .of hitems hlast (by rw [hleft]; exact htells)

/-- A pipeline with some levels of subscribers below it tells a run at the depth that is left.
The induction is on the levels: the fans of one level are made of the runs of the next. -/
theorem speaks_runNested (ho : Observed ctx P halts) (levels : Nat)
    (hlevels : depth + levels = ctx.config.maxSubscriberDepth) (root : NodeId)
    (seed : Option Value) :
    (Exec.runNested ctx levels root seed).Speaks P halts (RunWord ctx depth root seed) := by
  induction levels generalizing depth root seed with
  | zero =>
    refine speaks_of_fans ho hlevels rfl fun pool value => ?_
    refine Exec.Speaks.mono (speaks_forM (fun s => speaks_unlessStopped
      (speaks_refuseSubscriber pool s)) _) ?_
    exact fun word hword => .of_refusals (by omega) hword
  | succ levels ih =>
    refine speaks_of_fans ho hlevels rfl fun pool value => ?_
    have hnext : depth + 1 + levels = ctx.config.maxSubscriberDepth := by omega
    refine Exec.Speaks.mono (speaks_forM (fun s => speaks_unlessStopped (speaks_notifySubscriber
      (ih hnext s.root (some value)))) _) ?_
    exact fun word hword => .of_runs (by omega) hword

theorem speaks_execute (ho : Observed ctx P halts) (root : NodeId) (seed : Option Value) :
    (Exec.execute ctx root seed).Speaks P halts (RunWord ctx 0 root seed) :=
  speaks_runNested ho _ (Nat.zero_add _) root seed

-- ============================================================================
-- Runs of programs
-- ============================================================================

theorem speaks_pure : (pure () : Exec σ Unit).Speaks P halts (· = []) :=
  fun _ hr => ⟨hr, [], rfl, (List.append_nil _).symm⟩

theorem speaks_modify {language : List Event → Prop} {f : Run σ → Run σ}
    (h : ∀ r : Run σ, r.Calm P halts → (f r).Calm P halts ∧
      ∃ word, language word ∧ (f r).events.toList = r.events.toList ++ word) :
    (modify f : Exec σ Unit).Speaks P halts language :=
  fun r hr => h r hr

theorem speaks_activate (ho : Observed ctx P halts) (root : NodeId) :
    (Exec.activate ctx root).Speaks P halts (LiveWord ctx root) := by
  unfold Exec.activate LiveWord
  match hnode : ctx.program.node? root with
  | none => exact speaks_pure
  | some node =>
    let event : Event := .liveActivated node.pipeline node.kind.liveLiteral
    have hevent : Exec.Speaks P halts (· = [event]) (modify fun r =>
        (r.count fun m => { m with liveSources := m.liveSources + 1 }).emit event) :=
      speaks_modify fun r hr => ⟨⟨hr.state, hr.running, hr.room⟩, _, rfl, Array.toList_push⟩
    have hrun : Exec.Speaks P halts (fun word =>
        if ctx.config.runLiveSourcesOnce then RunWord ctx 0 root none word else word = [])
        (if ctx.config.runLiveSourcesOnce then Exec.execute ctx root none else pure ()) := by
      split
      · exact speaks_execute ho root none
      · exact speaks_pure
    refine (speaks_bind hevent hrun).mono ?_
    rintro word ⟨v, w, rfl, hw, rfl⟩
    exact ⟨w, rfl, hw⟩

/-- Loading libraries tells nothing. -/
theorem speaks_preloadImports (ho : Observed ctx P halts) :
    (Exec.preloadImports ctx).Speaks P halts (· = []) := by
  have hsilent : ∀ (imports : List Import) word,
      Each (fun (_ : Import) (w : List Event) => w = []) imports word → word = [] := by
    intro imports word h
    induction h with
    | nil => rfl
    | cons hfirst _ ih => rw [hfirst, ih, List.append_nil]
  refine Exec.Speaks.mono (speaks_forM (fun i => speaks_modify fun r hr => ?_) _) (hsilent _)
  have hstate := ho.host.preload i.library r.state hr.state
  match hload : ctx.host.preload i.library r.state with
  | (.ok _, state) =>
    rw [hload] at hstate
    exact ⟨⟨hstate, hr.running, hr.room⟩, [], rfl, (List.append_nil _).symm⟩
  | (.error e, state) =>
    rw [hload] at hstate
    exact ⟨⟨hstate, hr.running, hr.room⟩, [], rfl, (List.append_nil _).symm⟩

theorem speaks_fireSubscriptions (ho : Observed ctx P halts) (initial : PoolStore) :
    (Exec.fireSubscriptions ctx initial).Speaks P halts
      (Each (fun s => RunWord ctx 0 s.root (some ((initial.value? s.pool).getD .null)))
        ctx.plan.subscriptions) :=
  speaks_forM (fun s => speaks_unlessStopped
    (speaks_notifySubscriber (speaks_execute ho s.root _))) _

/-- The phases of a run tell a program. -/
theorem speaks_runAll (ho : Observed ctx P halts) (initial : PoolStore) :
    (Exec.runAll ctx initial).Speaks P halts (ProgramWord ctx initial) := by
  have hfinite : (Exec.runFinite ctx).Speaks P halts
      (Each (fun root => RunWord ctx 0 root none) ctx.plan.finiteRoots) :=
    speaks_forM (fun root => speaks_unlessStopped (speaks_execute ho root none)) _
  have hlive : (Exec.activateLive ctx).Speaks P halts (Each (LiveWord ctx) ctx.plan.liveRoots) :=
    speaks_forM (fun root => speaks_unlessStopped (speaks_activate ho root)) _
  have hfired : Exec.Speaks P halts (fun word => if ctx.config.fireSubscribersOnStart then
      Each (fun s => RunWord ctx 0 s.root (some ((initial.value? s.pool).getD .null)))
        ctx.plan.subscriptions word else word = [])
      (if ctx.config.fireSubscribersOnStart then Exec.fireSubscriptions ctx initial
        else pure ()) := by
    split
    · exact speaks_fireSubscriptions ho initial
    · exact speaks_pure
  refine (speaks_bind (speaks_preloadImports ho)
    (speaks_bind hfinite (speaks_bind hlive hfired))).mono ?_
  rintro word ⟨_, _, rfl, ⟨finite, _, hf, ⟨live, fired, hl, hs, rfl⟩, rfl⟩, rfl⟩
  exact ⟨finite, live, fired, by simp, hf, hl, hs⟩

end

-- ============================================================================
-- Whole runs
-- ============================================================================

/-- The initial pools keep the capacity of the settings, and are missing only where a history
has no room. -/
theorem Exec.initialPools_makes (ctx : RunContext σ) :
    (PoolStore.ofCapacity ctx.config.historyCapacity).Makes (Exec.initialPools ctx) := by
  have hdeclared := PoolStore.foldlM_makes
    (f := fun store (d : PoolDeclaration) => store.declare d.name (Literal.read ctx.json d.initial))
    (fun store d => store.make_makes d.name _) ctx.program.pools.contents
    (.ofCapacity ctx.config.historyCapacity)
  unfold Exec.initialPools
  match hout : ctx.program.pools.contents.foldlM
    (fun store (d : PoolDeclaration) => store.declare d.name (Literal.read ctx.json d.initial))
    (PoolStore.ofCapacity ctx.config.historyCapacity) with
  | .error h =>
    rw [hout] at hdeclared
    exact hdeclared
  | .ok declared =>
    rw [hout] at hdeclared
    have hsubscribed := PoolStore.foldlM_makes
      (f := fun store (s : Subscription) => store.subscribe s.pool s.pipeline)
      (fun store s => store.subscribe_makes s.pool s.pipeline) ctx.plan.subscriptions declared
    unfold PoolStore.Makes at hdeclared hsubscribed ⊢
    rw [hdeclared] at hsubscribed
    exact hsubscribed

/-- What a run of a program tells, and how it can be halted. -/
theorem Engine.run_speaks {engine : Engine σ} {program : Program} {P : σ → Prop}
    {halts : Halt → Prop} (ho : Observed (engine.context program) P halts)
    (hroom : halts .noRoom ∨ engine.config.historyCapacity ≤ PoolStore.maxCapacity) {s : σ}
    (hs : P s) :
    match engine.run program s with
    | .ok finished => ∃ initial, Exec.initialPools (engine.context program) = .ok initial ∧
        ProgramWord (engine.context program) initial finished.events
    | .error halted => halts halted.halt := by
  have hmakes := Exec.initialPools_makes (engine.context program)
  have hcapacity : halts .noRoom ∨ max engine.config.historyCapacity 1 ≤ PoolStore.maxCapacity := by
    rcases hroom with h | h
    · exact .inl h
    · exact .inr (Nat.max_le.2 ⟨h, by decide⟩)
  rw [Engine.run_eq]
  match hinitial : Exec.initialPools (engine.context program) with
  | .error h =>
    rw [hinitial] at hmakes
    obtain ⟨rfl, hfull⟩ := hmakes
    rcases hcapacity with hc | hc
    · exact hc
    · exact absurd hc (Nat.not_le_of_lt hfull)
  | .ok initial =>
    rw [hinitial] at hmakes
    have hstart : (Engine.startState (engine.context program) initial s).Calm P halts := by
      refine ⟨hs, rfl, ?_⟩
      show halts .noRoom ∨ initial.capacity ≤ PoolStore.maxCapacity
      rw [show initial.capacity = max engine.config.historyCapacity 1 from hmakes]
      exact hcapacity
    have hrun := speaks_runAll ho initial _ hstart
    simp only
    match hout : (Exec.runAll (engine.context program) initial).outcome
      (Engine.startState (engine.context program) initial s) with
    | (.error h, r) =>
      rw [hout] at hrun
      exact hrun
    | (.ok _, r) =>
      rw [hout] at hrun
      obtain ⟨-, word, hword, hevents⟩ := hrun
      refine ⟨initial, rfl, ?_⟩
      show ProgramWord _ initial r.events.toList
      rw [hevents]
      exact hword

-- ============================================================================
-- What is heard
-- ============================================================================

theorem Plan.mem_rootsWhere {p : Program} (hp : p.Indexed) {wanted : NodeKind → Bool}
    {root : NodeId} (h : root ∈ rootsWhere p wanted) :
    ∃ node, p.node? root = some node ∧ wanted node.kind = true := by
  obtain ⟨node, hmem, rfl, hwanted⟩ := mem_rootsWhere_iff.1 h
  obtain ⟨i, hi, hget⟩ := Array.mem_iff_getElem.1 hmem
  have hnode : p.node? i = some node := Array.getElem?_eq_some_iff.2 ⟨hi, hget⟩
  exact ⟨node, by rw [hp i node hnode]; exact hnode, hwanted⟩

/-- A live root is a live source. -/
theorem Plan.mem_liveRoots {p : Program} (hp : p.Indexed) {root : NodeId}
    (h : root ∈ (ofProgram p).liveRoots) :
    ∃ node literal, p.node? root = some node ∧ node.kind = .liveSource literal := by
  simp only [ofProgram] at h
  obtain ⟨node, hnode, hkind⟩ := mem_rootsWhere hp h
  match hk : node.kind with
  | .liveSource literal => exact ⟨node, literal, hnode, hk⟩
  | .finiteSource _ | .operator | .lens _ _ | .branch _ | .poolAccess _ | .poolWrite _ =>
    rw [hk] at hkind
    cases hkind

/-- What an observer hears of a run that is never cancelled is a word of the grammar, with an
activation for every live source, and where operators return there is such a run. -/
theorem Engine.events_are_programWord (engine : Engine σ) (program : Program) (P : σ → Prop)
    (s : σ) (c : Channel) (capacity : Nat) (hhost : engine.host.NeverCancelled P) (hs : P s)
    (hchannel : engine.channel = some c) (hbounded : c.Bounded capacity) (hempty : c.waiting = []) :
    (∀ finished, engine.run program s = .ok finished → finished.events.length ≤ capacity →
      ∃ initial, Exec.initialPools (engine.context program) = .ok initial ∧
        ProgramWord (engine.context program) initial finished.heard) ∧
    (program.Indexed → ∀ root ∈ (engine.context program).plan.liveRoots,
      ∃ node literal, program.node? root = some node ∧ node.kind = .liveSource literal) ∧
    (engine.host.OperatorsReturn P → engine.config.historyCapacity ≤ PoolStore.maxCapacity →
      ∃ finished, engine.run program s = .ok finished) := by
  refine ⟨fun finished hrun hroom => ?_, fun hp root hroot => Plan.mem_liveRoots hp hroot,
    fun hreturn hcapacity => ?_⟩
  · -- Any halt is allowed here: a finished run was not halted.
    have ho : Observed (engine.context program) P fun _ => True :=
      ⟨hhost, fun _ _ _ _ _ _ _ _ _ _ _ _ _ _ => trivial⟩
    have hspeaks := Engine.run_speaks ho (.inl trivial) hs
    rw [hrun] at hspeaks
    rw [heard_eq_take hchannel hbounded hempty hrun, List.take_of_length_le hroom]
    exact hspeaks
  · have ho : Observed (engine.context program) P fun _ => False :=
      ⟨hhost, fun name profile t op ht hop pools depth input args u h hu =>
        hreturn name profile t op ht hop pools depth input args u h hu⟩
    have hspeaks := Engine.run_speaks ho (.inr hcapacity) hs
    match hrun : engine.run program s with
    | .ok finished => exact ⟨finished, rfl⟩
    | .error halted =>
      rw [hrun] at hspeaks
      exact hspeaks.elim

/-- A subscriber that feeds itself, a write to its pool, and a live source. -/
def loopSource : String :=
  "let p = <|> 0\np -> to_pool(p) | print\n~ 1 | to_pool(p)\n~? x"

/-- An engine with room for a hundred events, on which subscribers are nested twice. -/
def loopEngine : Engine (Session Unit) :=
  (Session.engine { maxSubscriberDepth := 2 } []).withEvents (.bounded 100)

set_option maxRecDepth 4000 in
/-- A run of the loop, which ends at the deepest level, is heard as a word of the grammar; on a
host whose operators return, the loop has a run. -/
theorem Engine.events_of_loop :
    (∃ finished initial,
      loopEngine.run (.parse loopSource) (.ofConfig { maxSubscriberDepth := 2 } ()) =
        .ok finished ∧
      finished.events.length ≤ 100 ∧
      ProgramWord (loopEngine.context (.parse loopSource)) initial finished.heard) ∧
    ∃ finished, (Engine.echo.withEvents (.bounded 100)).run (.parse loopSource) () =
      .ok finished := by
  refine ⟨?_, ?_⟩
  · have hword := (Engine.events_are_programWord loopEngine (.parse loopSource)
      (fun s => s.cancelled = false) (.ofConfig { maxSubscriberDepth := 2 } ()) (.bounded 100) 100
      (Session.host_neverCancelled _) rfl rfl (Channel.bounded_bounded 100) rfl).1
    have hshort : (match loopEngine.run (.parse loopSource)
          (.ofConfig { maxSubscriberDepth := 2 } ()) with
        | .ok finished => decide (finished.events.length ≤ 100)
        | .error _ => false) = true := by decide +kernel
    match hrun : loopEngine.run (.parse loopSource)
        (.ofConfig { maxSubscriberDepth := 2 } ()) with
    | .ok finished =>
      rw [hrun] at hshort
      obtain ⟨initial, -, hinitial⟩ := hword finished hrun (of_decide_eq_true hshort)
      exact ⟨finished, initial, rfl, of_decide_eq_true hshort, hinitial⟩
    | .error halted =>
      rw [hrun] at hshort
      cases hshort
  · exact (Engine.events_are_programWord (Engine.echo.withEvents (.bounded 100))
      (.parse loopSource) (fun _ => True) () (.bounded 100) 100 Host.echo_neverCancelled trivial
      rfl (Channel.bounded_bounded 100) rfl).2.2 Host.echo_operatorsReturn (by decide)

end Sluice
