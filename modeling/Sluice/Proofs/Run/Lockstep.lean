/-
  Sluice.Proofs.Run.Lockstep

  Two runs of one program on hosts of their own, whose states are related. The runs have other
  events behind them and other observers; in all else they are alike. A run looks at its host only
  through what its host answers, and never looks at the events or at what became of them, so both
  do the same at every step and stay alike to their end, unless the first host is lost on the way.

  The relation of the hosts' states may depend on the number of operators that were called so
  far. A halt can come in the middle of a call, so after it only the rest of the runs is alike.
-/

import Sluice.Proofs.Run.Tandem

namespace Sluice

variable {σ τ α β : Type}

-- ============================================================================
-- Runs that are alike
-- ============================================================================

/-- A run without its host, its events and its observer. -/
def Run.bare (r : Run σ) : Run Unit :=
  { state := (), pools := r.pools, errors := r.errors, warnings := r.warnings
    output := r.output, metrics := r.metrics, stopped := r.stopped }

/-- Runs that differ only in the states of their hosts, which are related, in the events that they
had behind them to begin with, and in their observers. -/
structure Run.Alike (S : Nat → σ → τ → Prop) (before before' : Array Event) (r : Run σ)
    (r' : Run τ) : Prop where
  state : S r.metrics.operatorCalls r.state r'.state
  bare : r.bare = r'.bare
  told : ∃ told, r.events = before ++ told ∧ r'.events = before' ++ told

/-- A run's surroundings with another host and another observer. -/
def RunContext.on (ctx : RunContext σ) (host : Host τ) (channel : Option Channel) : RunContext τ :=
  { ctx with host, channel }

section

variable (S : Nat → σ → τ → Prop) (host : Host σ) (host' : Host τ)

/-- Operators that come to the same wherever they are invoked. An invocation counts as one call
beside those below it. -/
structure Operator.Mirrors (op : Operator σ) (op' : Operator τ) : Prop where
  tier : op.tier = op'.tier
  invoke : ∀ {n : Nat} {s : σ} {s' : τ} (pools : PoolStore) (depth : Nat) (input : Value)
    (args : Arguments), S n s s' →
    let invoked := op.invoke (some pools) (host.caller pools depth) input args s
    let invoked' := op'.invoke (some pools) (host'.caller pools depth) input args s'
    invoked.1 = invoked'.1 ∧ invoked.2.nested = invoked'.2.nested ∧
      invoked.2.warnings = invoked'.2.warnings ∧
      ((∀ h, invoked.1 ≠ .error (.halt h)) →
        S (n + (1 + invoked.2.nested)) invoked.2.state invoked'.2.state)

/-- Hosts that answer alike. -/
structure Host.Mirrors : Prop where
  resolve : ∀ {n : Nat} {s : σ} {s' : τ} (name : String) (profile : CallProfile), S n s s' →
    S n (host.resolve name profile s).2 (host'.resolve name profile s').2
  found : ∀ {n : Nat} {s : σ} {s' : τ} (name : String) (profile : CallProfile), S n s s' →
    match (host.resolve name profile s).1, (host'.resolve name profile s').1 with
    | .ok op, .ok op' => op.Mirrors S host host' op'
    | .error e, .error e' => e = e'
    | _, _ => False
  record : ∀ {n : Nat} {s : σ} {s' : τ} (name : String) (tier : Tier) (success : Bool),
    S n s s' → S n (host.record name tier success s) (host'.record name tier success s')
  preload : ∀ {n : Nat} {s : σ} {s' : τ} (library : String), S n s s' →
    (host.preload library s).1 = (host'.preload library s').1 ∧
      S n (host.preload library s).2 (host'.preload library s').2
  drainWarnings : ∀ {n : Nat} {s : σ} {s' : τ}, S n s s' →
    (host.drainWarnings s).1 = (host'.drainWarnings s').1 ∧
      S n (host.drainWarnings s).2 (host'.drainWarnings s').2
  isCancelled : ∀ {n : Nat} {s : σ} {s' : τ}, S n s s' →
    host.isCancelled s = host'.isCancelled s'

end

namespace Run.Alike

variable {S : Nat → σ → τ → Prop} {before before' : Array Event} {r : Run σ} {r' : Run τ}

theorem pools_eq (h : Alike S before before' r r') : r.pools = r'.pools :=
  congrArg Run.pools h.bare

theorem stopped_eq (h : Alike S before before' r r') : r.stopped = r'.stopped :=
  congrArg Run.stopped h.bare

theorem warn (h : Alike S before before' r r') (message : String) :
    Alike S before before' (r.warn message) (r'.warn message) :=
  ⟨h.state, congrArg (Run.warn message) h.bare, h.told⟩

theorem count (h : Alike S before before' r r') {f : Metrics → Metrics}
    (hf : ∀ m, (f m).operatorCalls = m.operatorCalls) :
    Alike S before before' (r.count f) (r'.count f) := by
  refine ⟨?_, congrArg (Run.count f) h.bare, h.told⟩
  show S (f r.metrics).operatorCalls r.state r'.state
  rw [hf]
  exact h.state

theorem emit (h : Alike S before before' r r') (event : Event) :
    Alike S before before' (r.emit event) (r'.emit event) := by
  obtain ⟨told, htold, htold'⟩ := h.told
  refine ⟨h.state, h.bare, told.push event, ?_, ?_⟩
  · rw [Run.emit, htold, Array.append_push]
  · rw [Run.emit, htold', Array.append_push]

theorem printed (h : Alike S before before' r r') (pipeline : PipelineId) (text : String) :
    Alike S before before' (r.printed pipeline text) (r'.printed pipeline text) :=
  ⟨h.state, congrArg (fun q : Run Unit => { q with output := q.output.push text }) h.bare,
    (h.emit (.printed pipeline text)).told⟩

theorem fail (h : Alike S before before' r r') (pipeline : PipelineId) (failure : Failure) :
    Alike S before before' (r.fail pipeline failure) (r'.fail pipeline failure) :=
  ⟨h.state, congrArg (fun q : Run Unit => { q.fail pipeline failure with events := #[] }) h.bare,
    (h.emit (.failed pipeline failure)).told⟩

theorem written (h : Alike S before before' r r') (pool : String) (value : Value) :
    Alike S before before' (r.written pool value) (r'.written pool value) := by
  have htold := (h.emit (.poolUpdated pool value ((r.pools.write pool value).1.getD 0))).told
  refine ⟨h.state, congrArg (fun q : Run Unit => { q.written pool value with events := #[] })
    h.bare, ?_⟩
  simp only [Run.written, ← h.pools_eq]
  exact htold

end Run.Alike

-- ============================================================================
-- The pairing
-- ============================================================================

/-- Runs that are alike, and after a halt but for their hosts and events. -/
def Pairing.alike (S : Nat → σ → τ → Prop) (lost : σ → Prop) (before before' : Array Event) :
    Pairing σ τ where
  related := Run.Alike S before before'
  halted r r' := r.bare = r'.bare
  lost := lost

section

variable {S : Nat → σ → τ → Prop} {lost : σ → Prop} {before before' : Array Event}

theorem Run.Alike.note {r : Run σ} {r' : Run τ} (h : Run.Alike S before before' r r') (n : Note) :
    Run.Alike S before before' (r.note n) (r'.note n) := by
  cases n with
  | warned message => exact h.warn message
  | retried => exact h.count (f := fun m => { m with retries := m.retries + 1 }) fun _ => rfl
  | printed pipeline text => exact h.printed pipeline text
  | rendered pipeline value => exact h.emit _
  | stepped => exact h.count (f := fun m => { m with steps := m.steps + 1 }) fun _ => rfl
  | started pipeline root =>
    exact Run.Alike.emit
      (h.count (f := fun m => { m with pipelinesRun := m.pipelinesRun + 1 }) fun _ => rfl) _
  | completed pipeline value => exact h.emit _
  | failed pipeline failure => exact h.fail pipeline failure
  | notified =>
    exact h.count
      (f := fun m => { m with subscriberNotifications := m.subscriberNotifications + 1 })
      fun _ => rfl
  | activated pipeline literal =>
    exact Run.Alike.emit
      (h.count (f := fun m => { m with liveSources := m.liveSources + 1 }) fun _ => rfl) _

theorem Pairing.hosting_alike : (Pairing.alike S lost before before').Hosting Eq S where
  note n hr := hr.note n
  stopped hr := hr.stopped_eq.symm
  pools hr := hr.pools_eq
  state hr := hr.state
  moved hr hs := ⟨hs, hr.bare, hr.told⟩
  tried line name calls warnings hr hs :=
    ⟨hs, congrArg (Run.tried line name calls warnings) hr.bare, hr.told⟩
  halted line name calls warnings hr := congrArg (Run.tried line name calls warnings) hr.bare

theorem Pairing.storing_alike :
    (Pairing.alike S lost before before').Storing (fun _ => True) fun _ => True where
  value? _ hr := by rw [hr.pools_eq]
  contains _ hr := by rw [hr.pools_eq]
  make {r r' pool pools} _ hr hensure := by
    refine ⟨pools, by rw [← hr.pools_eq, hensure], hr.state, ?_, hr.told⟩
    exact congrArg (fun q : Run Unit => { q with pools }) hr.bare
  full _ hr hensure := ⟨by rw [← hr.pools_eq, hensure], hr.bare⟩
  write {r r' pool} value _ hr _ := hr.written pool value

/-- Operators that mirror each other follow each other, and nothing is ever lost. -/
theorem Operator.Mirrors.follows {host : Host σ} {host' : Host τ} {op : Operator σ}
    {op' : Operator τ} (h : op.Mirrors S host host' op') :
    op.Follows Eq S (fun _ => False) host host' op' where
  tier := h.tier.symm
  staysIn input args := Action.staysIn_nowhere _
  invoke {n s s' pools pools'} depth input args hpools hs := by
    subst hpools
    obtain ⟨hresult, hnested, hwarnings, hstate⟩ := h.invoke pools depth input args hs
    generalize op.invoke _ _ _ _ _ = out at hresult hnested hwarnings hstate ⊢
    generalize op'.invoke _ _ _ _ _ = out' at hresult hnested hwarnings hstate ⊢
    obtain ⟨result, state, nested, warnings⟩ := out
    obtain ⟨result', state', nested', warnings'⟩ := out'
    simp only at hresult hnested hwarnings hstate
    subst hresult hnested hwarnings
    refine .same result nested warnings fun hreturns => ?_
    rw [Nat.add_assoc]
    exact hstate hreturns

/-- Hosts that answer alike follow each other, and nothing is ever lost. -/
theorem Host.Mirrors.follows {host : Host σ} {host' : Host τ} (h : host.Mirrors S host') :
    host.Follows (fun _ => True) (Operator.Follows Eq S (fun _ => False) host host') S
      (fun _ => False) host' where
  resolve {n s s' name} profile _ hs := by
    have hstate := h.resolve name profile hs
    have hfound := h.found name profile hs
    generalize host.resolve name profile s = resolved at hstate hfound ⊢
    generalize host'.resolve name profile s' = resolved' at hstate hfound ⊢
    match resolved, resolved' with
    | (.ok op, state), (.ok op', state') => exact .found hfound.follows hstate
    | (.error e, state), (.error e', state') =>
      obtain rfl : e = e' := hfound
      exact .missing e hstate
    | (.ok op, state), (.error e', state') => exact hfound.elim
    | (.error e, state), (.ok op', state') => exact hfound.elim
  record name tier success hs := .inl (h.record name tier success hs)
  preload library hs := (h.preload library hs).imp_left Eq.symm
  isCancelled hs := (h.isCancelled hs).symm
  steady := host.steady_nowhere

/-- Being alike survives whatever runs do on hosts of which one follows the other. -/
theorem Pairing.lasting_alike {ctx : RunContext σ} {host' : Host τ} {channel : Option Channel}
    (hhost : ctx.host.Follows (fun _ => True) (Operator.Follows Eq S lost ctx.host host') S lost
      host') :
    (Pairing.alike S lost before before').Lasting Eq S ctx (ctx.on host' channel) (fun _ => True)
      (fun _ => True) fun _ => True where
  toHosting := hosting_alike
  toStoring := storing_alike
  same := ⟨rfl, rfl, rfl, fun _ _ => rfl, fun _ => rfl, fun _ => rfl⟩
  follows := hhost

end

-- ============================================================================
-- Whole runs
-- ============================================================================

namespace Engine

/-- Runs of two engines of which one follows the other: the same report and the same events, or
the same halt, unless the first was lost on its way. Observers may hear of them differently. -/
inductive Meets (S : Nat → σ → τ → Prop) (lost : σ → Prop) (host : Host σ) :
    Except Halted (Finished σ) → Except Halted (Finished τ) → Prop
  | finished {finished : Finished σ} {finished' : Finished τ}
    (hreport : finished'.report = finished.report) (hevents : finished'.events = finished.events)
    (hstate : S finished.report.metrics.operatorCalls finished.state finished'.state) :
    Meets S lost host (.ok finished) (.ok finished')
  | halted (halted : Halted) : Meets S lost host (.error halted) (.error halted)
  | lost {out : Except Halted (Finished σ)} {out' : Except Halted (Finished τ)}
    (hlost : ∃ s, lost s)
    (h : ∀ finished, out = .ok finished → ∃ s, lost s ∧ finished.state = (host.drainWarnings s).2) :
    Meets S lost host out out'

/-- Runs that are alike make the same report, if their hosts hand over the same warnings. -/
theorem finish_eq {S : Nat → σ → τ → Prop} {before before' : Array Event} {r : Run σ} {r' : Run τ}
    (h : Run.Alike S before before' r r') {host : Host σ} {host' : Host τ}
    (hdrained : (host'.drainWarnings r'.state).1 = (host.drainWarnings r.state).1) :
    (finish host' r').1 = (finish host r).1 := by
  show Report.finalize _ = Report.finalize _
  rw [hdrained, ← h.pools_eq, ← show r.errors = r'.errors from congrArg Run.errors h.bare,
    ← show r.warnings = r'.warnings from congrArg Run.warnings h.bare,
    ← show r.output = r'.output from congrArg Run.output h.bare,
    ← show r.metrics = r'.metrics from congrArg Run.metrics h.bare]

/-- Where one host follows another a program has the same runs on both, if they also hand over
the same warnings. -/
theorem run_meets {S : Nat → σ → τ → Prop} {lost : σ → Prop} {engine : Engine σ}
    {engine' : Engine τ}
    (hhost : engine.host.Follows (fun _ => True)
      (Operator.Follows Eq S lost engine.host engine'.host) S lost engine'.host)
    (hconfig : engine'.config = engine.config) (hjson : engine'.json = engine.json)
    (hwarnings : ∀ {n s s'}, S n s s' →
      (engine'.host.drainWarnings s').1 = (engine.host.drainWarnings s).1 ∧
        S n (engine.host.drainWarnings s).2 (engine'.host.drainWarnings s').2)
    (program : Program) {s : σ} {s' : τ} (hs : S 0 s s') :
    Meets S lost engine.host (engine.run program s) (engine'.run program s') := by
  have hcontext : engine'.context program =
      (engine.context program).on engine'.host engine'.channel := by
    unfold context RunContext.on
    rw [hconfig, hjson]
  rw [run_eq, run_eq, hcontext]
  have hpools : Exec.initialPools ((engine.context program).on engine'.host engine'.channel) =
      Exec.initialPools (engine.context program) := rfl
  have hlasting : (Pairing.alike S lost #[] #[]).Lasting Eq S (engine.context program)
      ((engine.context program).on engine'.host engine'.channel) (fun _ => True) (fun _ => True)
      fun _ => True := Pairing.lasting_alike hhost
  rw [hpools]
  generalize engine.context program = ctx at hlasting ⊢
  match Exec.initialPools ctx with
  | .error halt => exact .halted _
  | .ok initial =>
    have hstart : Run.Alike S #[] #[] (startState ctx initial s)
        (startState (ctx.on engine'.host engine'.channel) initial s') := ⟨hs, rfl, #[], rfl, rfl⟩
    have hrun := (Exec.tandem_runAll hlasting rfl initial).meets _ _ hstart
    simp only
    generalize Exec.outcome (Exec.runAll ctx initial) _ = out at hrun ⊢
    generalize Exec.outcome (Exec.runAll (ctx.on _ _) initial) _ = out' at hrun ⊢
    cases hrun with
    | @ok _ r r' h =>
      obtain ⟨hdrained, hstate⟩ := hwarnings h.state
      obtain ⟨told, htold, htold'⟩ := h.told
      refine .finished (finish_eq h hdrained) ?_ hstate
      show r'.events.toList = r.events.toList
      rw [htold, htold']
    | @halt halt r r' hbare =>
      have houtput : r'.output = r.output := congrArg Run.output (Eq.symm hbare)
      simp only
      rw [houtput]
      exact .halted _
    | lost hlost h =>
      refine .lost hlost fun finished hfinished => ?_
      match out with
      | (.error halt, r) => cases hfinished
      | (.ok _, r) =>
        cases hfinished
        exact ⟨r.state, h _ r rfl, rfl⟩

/-- On hosts that answer alike a program has the same runs: the same report and the same events,
or the same halt. -/
theorem run_lockstep {S : Nat → σ → τ → Prop} {engine : Engine σ} {engine' : Engine τ}
    (hconfig : engine'.config = engine.config) (hjson : engine'.json = engine.json)
    (hhost : engine.host.Mirrors S engine'.host) (program : Program) {s : σ} {s' : τ}
    (hs : S 0 s s') :
    match engine.run program s, engine'.run program s' with
    | .ok finished, .ok finished' =>
      finished'.report = finished.report ∧ finished'.events = finished.events ∧
        S finished.report.metrics.operatorCalls finished.state finished'.state
    | .error halted, .error halted' => halted' = halted
    | _, _ => False := by
  have hmeets := run_meets hhost.follows hconfig hjson
    (fun hs => (hhost.drainWarnings hs).imp_left Eq.symm) program hs
  generalize engine.run program s = out at hmeets ⊢
  generalize engine'.run program s' = out' at hmeets ⊢
  cases hmeets with
  | finished hreport hevents hstate => exact ⟨hreport, hevents, hstate⟩
  | halted halted => rfl
  | lost hlost => exact hlost.elim fun _ hnever => hnever.elim

end Engine

end Sluice
