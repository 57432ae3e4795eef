/-
  Sluice.Proofs.Run.Commute

  Independent finite sources commute. What a run from a root does depends on the pools that it
  touches, and it changes no pools but those that it writes. So from two stores that agree on the
  first it does the same, and leaves the other pools of each store as they are. If neither of two
  roots writes what the other touches, then each of them finds what it touches unchanged by the
  other, in whichever order they run, and the pools at the end are the same.
-/

import Sluice.Proofs.Run.Beside
import Sluice.Proofs.Run.Footprint

namespace Sluice

variable {σ τ : Type} {touches writes : String → Prop}

-- ============================================================================
-- Stores
-- ============================================================================

/-- Two stores that started from others: they agree on the pools that are touched, and the pools
that are not written are those they started with. -/
structure PoolStore.Abreast (touches writes : String → Prop)
    (base base' store store' : PoolStore) : Prop where
  capacity : store.capacity = base.capacity ∧ store'.capacity = base.capacity
  within : ∀ pool, touches pool → store'.get? pool = store.get? pool
  outside : ∀ pool, ¬ writes pool → store.get? pool = base.get? pool ∧
    store'.get? pool = base'.get? pool

namespace PoolStore.Abreast

variable {base base' store store' : PoolStore} {name : String}

theorem start (hcapacity : base'.capacity = base.capacity)
    (hwithin : ∀ pool, touches pool → base'.get? pool = base.get? pool) :
    Abreast touches writes base base' base base' :=
  ⟨⟨rfl, hcapacity⟩, hwithin, fun _ _ => ⟨rfl, rfl⟩⟩

theorem agreeOn (h : Abreast touches writes base base' store store') :
    store.AgreeOn touches store' := by
  intro pool hpool
  rw [value?, value?, h.within pool hpool]

/-- The same pool is put into both stores. -/
theorem put (h : Abreast touches writes base base' store store') (hname : writes name)
    (pool : Pool) :
    Abreast touches writes base base' (store.put name pool) (store'.put name pool) where
  capacity := h.capacity
  within other hother := by
    by_cases hsame : other = name
    · rw [hsame, get?_put_self, get?_put_self]
    · rw [get?_put_of_ne hsame, get?_put_of_ne hsame]
      exact h.within other hother
  outside other hother := by
    have hne : other ≠ name := fun hsame => hother (hsame ▸ hname)
    rw [get?_put_of_ne hne, get?_put_of_ne hne]
    exact h.outside other hother

/-- A pool is made in both stores or in none. -/
theorem ensure (h : Abreast touches writes base base' store store') (hwrites : writes name)
    (htouches : touches name) :
    match store.ensure name, store'.ensure name with
    | .ok made, .ok made' => Abreast touches writes base base' made made'
    | .error halt, .error halt' => halt' = halt
    | _, _ => False := by
  have hcontains : store'.contains name = store.contains name :=
    congrArg Option.isSome (h.within name htouches)
  have hcapacity : store'.capacity = store.capacity := h.capacity.2.trans h.capacity.1.symm
  unfold PoolStore.ensure PoolStore.make
  rw [hcontains, hcapacity]
  by_cases hhas : store.contains name = true
  · rw [if_pos hhas, if_pos hhas]
    exact h
  · rw [if_neg hhas, if_neg hhas]
    by_cases hfull : maxCapacity < store.capacity
    · rw [if_pos hfull, if_pos hfull]
    · rw [if_neg hfull, if_neg hfull]
      exact h.put hwrites _

/-- The same value is written to a pool of both stores. -/
theorem write (h : Abreast touches writes base base' store store') (hwrites : writes name)
    (htouches : touches name) (hcontains : store.contains name = true) (value : Value) :
    Abreast touches writes base base' (store.write name value).2 (store'.write name value).2 := by
  obtain ⟨pool, hpool⟩ := get?_isSome hcontains
  have hpool' : store'.get? name = some pool := (h.within name htouches).trans hpool
  rw [write_of_get? hpool, write_of_get? hpool', h.capacity.1, h.capacity.2]
  exact h.put hwrites _

/-- Two steps from one store, each taken before and after the other, come to stores with the same
pools if none writes what the other touches. -/
theorem get?_diamond {touches' writes' : String → Prop} {store a b ab ba : PoolStore}
    (ha : Abreast touches writes store b a ba) (hb : Abreast touches' writes' a store ab b)
    (htouches : ∀ pool, writes pool → touches pool)
    (htouches' : ∀ pool, writes' pool → touches' pool)
    (hapart : ∀ pool, writes pool → ¬ touches' pool) (pool : String) :
    ab.get? pool = ba.get? pool := by
  by_cases hwrites : writes pool
  · have hother : ¬ writes' pool := fun h => hapart pool hwrites (htouches' pool h)
    rw [(hb.outside pool hother).1, ha.within pool (htouches pool hwrites)]
  · rw [(ha.outside pool hwrites).2]
    by_cases hwrites' : writes' pool
    · rw [hb.within pool (htouches' pool hwrites')]
    · rw [(hb.outside pool hwrites').1, (hb.outside pool hwrites').2, (ha.outside pool hwrites).1]

end PoolStore.Abreast

/-- Stores in key order are the same if all names have the same pools. -/
theorem PoolStore.eq_of_get? {store store' : PoolStore}
    (hcapacity : store.capacity = store'.capacity) (h : store.pools.Ordered)
    (h' : store'.pools.Ordered) (hget : ∀ name, store.get? name = store'.get? name) :
    store = store' := by
  cases store
  cases store'
  rw [PoolStore.mk.injEq]
  exact ⟨hcapacity, h.ext h' hget⟩

-- ============================================================================
-- Runs
-- ============================================================================

/-- Runs with hosts in some states and with stores abreast of each other. -/
structure Run.Abreast (P : σ → Prop) (touches writes : String → Prop) (base base' : PoolStore)
    (r r' : Run σ) : Prop where
  state : P r.state ∧ P r'.state
  stopped : r.stopped = r'.stopped
  pools : PoolStore.Abreast touches writes base base' r.pools r'.pools

namespace Pairing

variable {P : σ → Prop} {base base' : PoolStore}

/-- Runs abreast of each other; nothing is said of them after a halt. -/
def abreast (P : σ → Prop) (touches writes : String → Prop) (base base' : PoolStore) :
    Pairing σ σ where
  related := Run.Abreast P touches writes base base'
  halted _ _ := True
  lost _ := False

theorem hosting_abreast : (abreast P touches writes base base').Hosting
    (PoolStore.AgreeOn touches) fun _ s s' => P s ∧ P s' where
  note n hr := by
    constructor
    · rw [Run.state_note, Run.state_note]
      exact hr.state
    · rw [Run.stopped_note, Run.stopped_note, hr.stopped]
    · rw [Run.pools_note, Run.pools_note]
      exact hr.pools
  stopped hr := hr.stopped.symm
  pools hr := hr.pools.agreeOn
  state hr := hr.state
  moved hr hs := ⟨hs, hr.stopped, hr.pools⟩
  tried _ _ _ _ hr hs := ⟨hs, hr.stopped, hr.pools⟩
  halted _ _ _ _ _ := trivial

theorem storing_abreast (hwrites : ∀ pool, writes pool → touches pool) :
    (abreast P touches writes base base').Storing touches writes where
  value? {r r' pool} hpool hr := hr.pools.agreeOn pool hpool
  contains {r r' pool} hpool hr :=
    congrArg Option.isSome (hr.pools.within pool (hwrites pool hpool))
  make {r r' pool pools} hpool hr hensure := by
    have hboth := hr.pools.ensure hpool (hwrites pool hpool)
    rw [hensure] at hboth
    match hensure' : r'.pools.ensure pool with
    | .ok pools' =>
      rw [hensure'] at hboth
      exact ⟨pools', rfl, hr.state, hr.stopped, hboth⟩
    | .error halt =>
      rw [hensure'] at hboth
      exact hboth.elim
  full {r r' pool h} hpool hr hensure := by
    have hboth := hr.pools.ensure hpool (hwrites pool hpool)
    rw [hensure] at hboth
    match hensure' : r'.pools.ensure pool with
    | .ok pools' =>
      rw [hensure'] at hboth
      exact hboth.elim
    | .error halt =>
      rw [hensure'] at hboth
      exact ⟨congrArg _ hboth, trivial⟩
  write {r r' pool} value hpool hr hcontains :=
    ⟨hr.state, hr.stopped, hr.pools.write hpool (hwrites pool hpool) hcontains value⟩

end Pairing

-- ============================================================================
-- Confined roots
-- ============================================================================

/-- A finite source that depends on some pools and changes some of these. -/
structure RunContext.Confined (ctx : RunContext σ) (P : σ → Prop) (root : NodeId)
    (touches writes : String → Prop) : Prop where
  touched : ∀ pool, writes pool → touches pool
  tandem : ∀ base base', (Task.runEach ctx [.finite root]).Tandem
    (.abreast P touches writes base base') (Task.runEach ctx [.finite root])

namespace RunContext

variable {ctx : RunContext σ} {P : σ → Prop} {root : NodeId}

/-- A source is confined to a territory that it never leaves. -/
theorem confined_of_territory {nodes : NodeId → Prop} {calls : String → Prop}
    (hterritory : ctx.Territory nodes touches writes calls) (hroot : nodes root)
    (hwrites : ∀ pool, writes pool → touches pool)
    (hfollows : ctx.host.Follows calls
      (Operator.Follows (PoolStore.AgreeOn touches) (fun _ s s' => P s ∧ P s') (fun _ => False)
        ctx.host ctx.host)
      (fun _ s s' => P s ∧ P s') (fun _ => False) ctx.host) :
    ctx.Confined P root touches writes where
  touched := hwrites
  tandem base base' := by
    have hlasting : (Pairing.abreast P touches writes base base').Lasting
        (PoolStore.AgreeOn touches) (fun _ s s' => P s ∧ P s') ctx ctx touches writes calls :=
      { toHosting := Pairing.hosting_abreast
        toStoring := Pairing.storing_abreast hwrites
        same := .refl ctx
        follows := hfollows }
    refine Exec.tandem_forM _ fun task htask => Exec.tandem_unlessStopped hlasting ?_
    obtain rfl := List.mem_singleton.1 htask
    exact Exec.tandem_execute hlasting hterritory hroot none

namespace Confined

/-- From a store that has what is touched a confined source does the same. -/
theorem again (h : ctx.Confined P root touches writes) {r r' t : Run σ} (hr : r.Running P)
    (hr' : r'.Running P) (hcapacity : r'.pools.capacity = r.pools.capacity)
    (hwithin : ∀ pool, touches pool → r'.pools.get? pool = r.pools.get? pool)
    (hout : (Task.runEach ctx [.finite root]).outcome r = (.ok (), t)) :
    ∃ t', (Task.runEach ctx [.finite root]).outcome r' = (.ok (), t') ∧
      PoolStore.Abreast touches writes r.pools r'.pools t.pools t'.pools := by
  have hstart : Run.Abreast P touches writes r.pools r'.pools r r' :=
    ⟨⟨hr.state, hr'.state⟩, hr.stopped.trans hr'.stopped.symm, .start hcapacity hwithin⟩
  obtain ⟨t', hout', ht⟩ := (h.tandem _ _).of_ok (fun _ hlost => hlost) hstart hout
  exact ⟨t', hout', ht.pools⟩

/-- A confined source leaves all pools alone that it does not write. -/
theorem frame (h : ctx.Confined P root touches writes) {r t : Run σ} (hr : r.Running P)
    (hout : (Task.runEach ctx [.finite root]).outcome r = (.ok (), t)) :
    t.pools.capacity = r.pools.capacity ∧
      ∀ pool, ¬ writes pool → t.pools.get? pool = r.pools.get? pool := by
  obtain ⟨_, -, ht⟩ := h.again hr hr rfl (fun _ _ => rfl) hout
  exact ⟨ht.capacity.1, fun pool hpool => (ht.outside pool hpool).1⟩

end Confined

variable {a b : NodeId} {touches' writes' : String → Prop}

/-- Two confined sources of which none writes what the other touches come to the same pools in
either order. -/
theorem commute (hhost : ctx.host.NeverCancelled P) (ha : ctx.Confined P a touches writes)
    (hb : ctx.Confined P b touches' writes') (hab : ∀ pool, writes pool → ¬ touches' pool)
    (hba : ∀ pool, writes' pool → ¬ touches pool) {r t : Run σ} (hr : r.Running P)
    (hout : (Task.runEach ctx ([a, b].map .finite)).outcome r = (.ok (), t)) :
    ∃ t', (Task.runEach ctx ([b, a].map .finite)).outcome r = (.ok (), t') ∧
      Run.Beside P t.log t'.log t t' := by
  have hrunning : ∀ {root : NodeId} {r t : Run σ}, r.Running P →
      (Task.runEach ctx ([root].map .finite)).outcome r = (.ok (), t) → t.Running P :=
    running_of_runEach hhost
  have hboth : (Task.runEach ctx ([.finite a] ++ [.finite b])).outcome r = (.ok (), t) := hout
  obtain ⟨r₁, houtA, houtB⟩ := Task.runEach_append_ok.1 hboth
  have hr₁ := hrunning hr houtA
  obtain ⟨hcapA, hframeA⟩ := ha.frame hr houtA
  -- The second source finds what it touches as it was before the first.
  obtain ⟨r₂, houtB', hB⟩ := hb.again hr₁ hr hcapA.symm
    (fun pool hpool => (hframeA pool fun hwrites => hab pool hwrites hpool).symm) houtB
  have hr₂ := hrunning hr houtB'
  obtain ⟨hcapB, hframeB⟩ := hb.frame hr houtB'
  -- And so does the first after the second.
  obtain ⟨t', houtA', hA⟩ := ha.again hr hr₂ hcapB
    (fun pool hpool => hframeB pool fun hwrites => hba pool hwrites hpool) houtA
  have ht := hrunning hr₁ houtB
  have ht' := hrunning hr₂ houtA'
  refine ⟨t', Task.runEach_append_ok.2 ⟨r₂, houtB', houtA'⟩,
    .start ⟨ht.state, ht'.state⟩ ?_ (ht.stopped.trans ht'.stopped.symm)⟩
  refine PoolStore.eq_of_get? ?_ ht.ordered ht'.ordered
    (hA.get?_diamond hB ha.touched hb.touched hab)
  rw [hB.capacity.1, hcapA, hA.capacity.2]

/-- A run with two such sources in one order comes to the pools of a run with the other order. -/
theorem run_swapped (hhost : ctx.host.Functional P) (ha : ctx.Confined P a touches writes)
    (hb : ctx.Confined P b touches' writes') (hab : ∀ pool, writes pool → ¬ touches' pool)
    (hba : ∀ pool, writes' pool → ¬ touches pool) {pre post : List NodeId} {s : σ} (hs : P s)
    {pools : Record Pool}
    (h : ∃ finished, (ctx.withRoots (pre ++ [a, b] ++ post)).run s = .ok finished ∧
      finished.report.pools = pools) :
    ∃ finished, (ctx.withRoots (pre ++ [b, a] ++ post)).run s = .ok finished ∧
      finished.report.pools = pools := by
  obtain ⟨finished, hrun, rfl⟩ := h
  obtain ⟨initial, r, t, u, hinitial, hpre, hmid, hpost, hreport⟩ :=
    run_withRoots_ok.1 ⟨finished, hrun, rfl⟩
  have hrunning := running_of_runEach hhost.toNeverCancelled
    (running_loaded hhost.toNeverCancelled hinitial hs) hpre
  obtain ⟨t', hmid', hbeside⟩ := commute hhost.toNeverCancelled ha hb hab hba hrunning hmid
  obtain ⟨u', rest, hpost', hpools, -, -⟩ := finish_beside hhost hbeside hpost
  obtain ⟨swapped, hswapped, hreport'⟩ :=
    run_withRoots_ok.2 ⟨initial, r, t', u', hinitial, hpre, hmid', hpost', rfl⟩
  exact ⟨swapped, hswapped, by rw [hreport', hpools, hreport]⟩

/-- Two such sources next to each other can be taken in either order. -/
theorem run_iff_swapped (hhost : ctx.host.Functional P) (ha : ctx.Confined P a touches writes)
    (hb : ctx.Confined P b touches' writes') (hab : ∀ pool, writes pool → ¬ touches' pool)
    (hba : ∀ pool, writes' pool → ¬ touches pool) {pre post : List NodeId}
    (hroots : ctx.plan.finiteRoots = pre ++ a :: b :: post) {s : σ} (hs : P s)
    (pools : Record Pool) :
    (∃ finished, ctx.run s = .ok finished ∧ finished.report.pools = pools) ↔
    ∃ finished, (ctx.withRoots (pre ++ b :: a :: post)).run s = .ok finished ∧
      finished.report.pools = pools := by
  have hsplit : ∀ x y, pre ++ x :: y :: post = pre ++ [x, y] ++ post := by
    intro x y
    rw [List.append_assoc, List.cons_append, List.singleton_append]
  have hself := withRoots_eq_self hroots
  rw [hsplit] at hself ⊢
  constructor
  · intro h
    rw [← hself] at h
    exact run_swapped hhost ha hb hab hba hs h
  · intro h
    have hback := run_swapped hhost hb ha hba hab hs h
    rw [hself] at hback
    exact hback

end RunContext

/-- The finite sources of a session are confined to their footprints, unless something there calls
an operator of the core that calls others or reads pools on its own. -/
theorem Session.confined (build : Build τ) (config : Config)
    {operators : List (Operator (Session τ))} {P : Session τ → Prop}
    (hhost : (Session.host operators (build.tiers config)).Functional P) (source : String)
    {root : NodeId} (hroot : root ∈ (Plan.ofProgram (.parse source)).finiteRoots)
    (hcore : ∀ name, (Program.parse source).Calls operators root name → name ∉ Core.askers) :
    ((Session.engine config operators build).context (.parse source)).Confined P root
      ((Program.parse source).Touches operators root) ((Program.parse source).Writes root) := by
  obtain ⟨anchors, hlayout⟩ := Program.parse_layout source
  obtain ⟨hwired, -⟩ := Program.parse_wired source
  generalize Program.parse source = program at hroot hcore hlayout hwired ⊢
  refine RunContext.confined_of_territory
    (Program.territory_triggered hlayout hwired operators rfl rfl hroot) .root (fun _ => .inr) ?_
  exact Session.follows_of_agree hhost hcore
    (fun op hop hcalled pool hpool => .inl (.operator hcalled hop hpool))
    (fun op hop hcalled name hname => .operator hcalled hop hname)

/-- Independent pipelines commute. Take two finite sources next to each other in a parsed program
such that neither writes, itself or through the subscribers that it sets off, what the other reads
or writes there, and that nothing there calls an operator of the core which calls others or reads
pools on its own. With the breaker off, without cancellation, with operators that only ask and
scripts that look at no clock, the run that takes them in the other order finishes if the run does,
and with the same pools: their values, histories, counts of updates and subscribers. -/
theorem Engine.independent_sources_commute (build : Build τ) (config : Config)
    (htimeless : (build.tiers config).Timeless) {operators : List (Operator (Session τ))}
    (hoperators : ∀ op ∈ operators, op.OnlyAsks)
    (source : String) {s : Session τ} (hoff : s.registry.breaker.settings.enabled = false)
    (hrunning : s.cancelled = false) {pre post : List NodeId} {a b : NodeId}
    (hroots : (Plan.ofProgram (.parse source)).finiteRoots = pre ++ a :: b :: post)
    (hindependent : (Program.parse source).Independent operators a b)
    (hcore : ∀ name ∈ Core.askers, ¬ (Program.parse source).Calls operators a name ∧
      ¬ (Program.parse source).Calls operators b name) (pools : Record Pool) :
    (∃ finished, (Session.engine config operators build).run (.parse source) s = .ok finished ∧
      finished.report.pools = pools) ↔
    ∃ finished, (((Session.engine config operators build).context (.parse source)).withRoots
        (pre ++ b :: a :: post)).run s = .ok finished ∧
      finished.report.pools = pools := by
  have hhost := Session.functional hoperators htimeless hoff hrunning
  have hs : s.Alike s := ⟨.refl _, rfl⟩
  have hmem : ∀ root ∈ [a, b], root ∈ (Plan.ofProgram (.parse source)).finiteRoots := by
    rw [hroots]
    simp
  have ha := Session.confined build config hhost source (hmem a (by simp))
    fun name hname hin => (hcore name hin).1 hname
  have hb := Session.confined build config hhost source (hmem b (by simp))
    fun name hname hin => (hcore name hin).2 hname
  rw [run_eq_context]
  exact RunContext.run_iff_swapped hhost ha hb hindependent.left hindependent.right hroots hs pools

/-- An operator that answers with the value of a pool. -/
def peekOperator : Operator (Session Unit) where
  name := "peek"
  arity := .any
  tier := .core
  library := "own"
  body _ _ := .readPool "step" fun value => .finish (.ok (value.getD .null))

theorem peekOperator_onlyAsks : peekOperator.OnlyAsks :=
  fun _ _ _ => trivial

/-- Two sources that write different pools. Each has a subscriber that writes another pool, and
both read the same pool: one by an argument, the other also by an operator of the host. -/
def steppingSource : String :=
  "let step = <|> 5\np -> add($step) | to_pool(s)\nq -> peek | to_pool(t)\n" ++
    "~ 1 | to_pool(p)\n~ 2 | add($step) | to_pool(q)"

/-- Nodes from which nothing leads elsewhere, where some pools are written, one is read by
arguments and two operators are called. -/
def SteppingPart (ids : List NodeId) (written : List String) : Prop :=
  ∀ i ∈ ids, (∀ j ∈ (Program.parse steppingSource).allTargets i, j ∈ ids) ∧
    ∀ node ∈ (Program.parse steppingSource).node? i,
      (match node.kind with | .poolWrite pool => written.contains pool | _ => true) = true ∧
      (∀ a ∈ node.evaluated, ∀ pool ∈ a.poolReference?, pool = "step") ∧
      ∀ name ∈ node.called, name ∈ ["add", "peek"]

instance (ids : List NodeId) (written : List String) : Decidable (SteppingPart ids written) :=
  inferInstanceAs (Decidable (∀ i ∈ ids, _))

/-- From a node of such a part nothing else is written, read and called. -/
theorem SteppingPart.footprint {ids : List NodeId} {written : List String} {root : NodeId}
    (h : SteppingPart ids written) (hroot : root ∈ ids) :
    (∀ pool, (Program.parse steppingSource).Writes root pool → pool ∈ written) ∧
    (∀ pool, (Program.parse steppingSource).Touches [peekOperator] root pool →
      pool ∈ "step" :: written) ∧
    ∀ name, (Program.parse steppingSource).Calls [peekOperator] root name →
      name ∈ ["add", "peek"] := by
  have hids : ∀ {id}, (Program.parse steppingSource).Triggered root id → id ∈ ids := by
    intro id hid
    have hreaches := Program.reaches_of_triggered hid
    clear hid
    induction hreaches with
    | refl => exact hroot
    | tail _ hleads ih => exact (h _ ih).1 _ hleads
  have hown : ∀ {op}, op ∈ [peekOperator] → op = peekOperator := List.mem_singleton.1
  have hwrites : ∀ pool, (Program.parse steppingSource).Writes root pool → pool ∈ written := by
    rintro pool ⟨id, node, hid, hnode, hkind⟩
    have hwritten := ((h id (hids hid)).2 node hnode).1
    rw [hkind] at hwritten
    exact List.contains_iff_mem.1 hwritten
  refine ⟨hwrites, ?_, ?_⟩
  · rintro pool (hread | hwritten)
    · refine List.mem_cons.2 (.inl ?_)
      cases hread with
      | argument hid hnode hargument hpool =>
        exact ((h _ (hids hid)).2 _ hnode).2.1 _ hargument pool hpool
      | operator _ hop hpool =>
        rw [hown hop] at hpool
        obtain ⟨input, args, hsame | ⟨value, hvalue⟩⟩ := hpool
        · exact hsame.symm
        · exact hvalue.elim
    · exact List.mem_cons_of_mem _ (hwrites pool hwritten)
  · intro name hname
    cases hname with
    | node hid hnode hname => exact ((h _ (hids hid)).2 _ hnode).2.2 name hname
    | operator _ hop hname =>
      rw [hown hop] at hname
      obtain ⟨input, args, value, hvalue⟩ := hname
      exact hvalue.elim

set_option maxRecDepth 4000 in
/-- With the second source first the pools are the same at the end. -/
theorem Engine.stepping_sources_commute :
    ∃ finished swapped,
      (Session.engine .unbroken [peekOperator]).run (.parse steppingSource)
        (.ofConfig .unbroken ()) = .ok finished ∧
      finished.report.pools.keys = ["p", "q", "s", "step", "t"] ∧
      finished.report.pools.contents.map (·.updates) = [1, 1, 1, 0, 2] ∧
      (((Session.engine .unbroken [peekOperator]).context (.parse steppingSource)).withRoots
        [8, 6]).run (.ofConfig .unbroken ()) = .ok swapped ∧
      swapped.report.pools = finished.report.pools := by
  have hends : (match (Session.engine .unbroken [peekOperator]).run (.parse steppingSource)
        (.ofConfig .unbroken ()) with
      | .ok finished => decide (finished.report.pools.keys = ["p", "q", "s", "step", "t"] ∧
          finished.report.pools.contents.map (·.updates) = [1, 1, 1, 0, 2])
      | .error _ => false) = true := by decide +kernel
  obtain ⟨hroots, hfirst, hsecond⟩ :
      (Plan.ofProgram (.parse steppingSource)).finiteRoots = [] ++ 6 :: 8 :: [] ∧
      SteppingPart [0, 1, 2, 6, 7] ["p", "s"] ∧
      SteppingPart [3, 4, 5, 8, 9, 10] ["q", "t"] := by decide +kernel
  obtain ⟨hwrites, htouches, hcalls⟩ := hfirst.footprint (show 6 ∈ [0, 1, 2, 6, 7] by decide)
  obtain ⟨hwrites', htouches', hcalls'⟩ :=
    hsecond.footprint (show 8 ∈ [3, 4, 5, 8, 9, 10] by decide)
  have hapart : (∀ pool ∈ ["p", "s"], pool ∉ ["step", "q", "t"]) ∧
      ∀ pool ∈ ["q", "t"], pool ∉ ["step", "p", "s"] := by decide
  have hindependent : (Program.parse steppingSource).Independent [peekOperator] 6 8 :=
    ⟨fun pool hwritten htouched => hapart.1 pool (hwrites pool hwritten) (htouches' pool htouched),
      fun pool hwritten htouched => hapart.2 pool (hwrites' pool hwritten) (htouches pool htouched)⟩
  have hplain : ∀ name ∈ Core.askers, name ∉ ["add", "peek"] := by decide
  match hrun : (Session.engine .unbroken [peekOperator]).run (.parse steppingSource)
      (.ofConfig .unbroken ()) with
  | .error halted =>
    rw [hrun] at hends
    cases hends
  | .ok finished =>
    rw [hrun] at hends
    obtain ⟨hkeys, hupdates⟩ := of_decide_eq_true hends
    obtain ⟨swapped, hswapped, hpools⟩ :=
      (independent_sources_commute {} .unbroken (Build.timeless_tiers Script.plain_timeless _)
        (List.forall_mem_singleton.2 peekOperator_onlyAsks) steppingSource rfl rfl hroots
        hindependent
        (fun name hname => ⟨fun h => hplain name hname (hcalls name h),
          fun h => hplain name hname (hcalls' name h)⟩) _).1 ⟨finished, hrun, rfl⟩
    exact ⟨finished, swapped, rfl, hkeys, hupdates, hswapped, hpools⟩

end Sluice
