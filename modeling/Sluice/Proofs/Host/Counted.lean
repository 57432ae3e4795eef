/-
  Sluice.Proofs.Host.Counted

  A host that counts invocations. Each of its operators does what the original one does and adds
  one to a number beside the host's state as it ends; nobody else touches that number. Refusing
  a call for its number of arguments is part of what such an operator does, so it counts as well.

  A run on this host is the run on the original one, and the number it ends with is the number
  of calls that the run has counted itself.
-/

import Sluice.Proofs.Run.Lockstep
import Sluice.Proofs.Run.Sending

namespace Sluice

variable {σ : Type}

/-- An action that adds one as it ends. -/
def Action.counted : Action σ → Action (σ × Nat)
  | .finish result => .perform fun s => (result, (s.1, s.2 + 1))
  | .call name input args next => .call name input args fun result => (next result).counted
  | .readPool name next => .readPool name fun value => (next value).counted
  | .warn message next => .warn message next.counted
  | .perform effect => .perform fun s => ((effect s.1).1, ((effect s.1).2, s.2 + 1))

/-- An operator that adds one to the number as it ends, also where it refuses its arguments. -/
def Operator.counted (op : Operator σ) : Operator (σ × Nat) where
  name := op.name
  arity := .any
  tier := op.tier
  library := op.library
  body input args :=
    if op.arity.admits args.length then (op.body input args).counted
    else (Action.finish (Attempt.refuse (.arity op.arity.render args.length))).counted

/-- A host that counts how often an operator it found is invoked. -/
def Host.counted (host : Host σ) : Host (σ × Nat) where
  resolve name profile s :=
    ((host.resolve name profile s.1).1.map Operator.counted,
      ((host.resolve name profile s.1).2, s.2))
  record name tier success s := (host.record name tier success s.1, s.2)
  preload library s := ((host.preload library s.1).1, ((host.preload library s.1).2, s.2))
  drainWarnings s := ((host.drainWarnings s.1).1, ((host.drainWarnings s.1).2, s.2))
  isCancelled s := host.isCancelled s.1

-- ============================================================================
-- Invocations
-- ============================================================================

/-- Outcomes that agree, where the number has gone up by the calls on the way, unless there was a
halt. -/
structure Trail.Counts (n : Nat) (out : Attempt Value × Trail σ)
    (out' : Attempt Value × Trail (σ × Nat)) : Prop where
  result : out.1 = out'.1
  nested : out.2.nested = out'.2.nested
  warnings : out.2.warnings = out'.2.warnings
  state : (∀ h, out.1 ≠ .error (.halt h)) → out'.2.state = (out.2.state, n + out.2.nested)

/-- An action with counted calls is counted: the calls below it, and itself. -/
theorem Action.run_counted (pools : Option PoolStore) {caller : Caller σ}
    {caller' : Caller (σ × Nat)}
    (hcaller : ∀ name input args s n,
      Trail.Counts n (caller name input args s) (caller' name input args (s, n)))
    (action : Action σ) (n : Nat) (trail : Trail σ) :
    Trail.Counts (n + 1) (action.run pools caller trail)
      (action.counted.run pools caller'
        ⟨(trail.state, n + trail.nested), trail.nested, trail.warnings⟩) := by
  have hadd : ∀ s : σ, (s, n + trail.nested + 1) = (s, n + 1 + trail.nested) := by
    intro s
    rw [Nat.add_right_comm]
  induction action generalizing trail with
  | finish result => exact ⟨rfl, rfl, rfl, fun _ => hadd _⟩
  | perform effect => exact ⟨rfl, rfl, rfl, fun _ => hadd _⟩
  | warn message next ih => exact ih { trail with warnings := trail.warnings ++ [message] } hadd
  | readPool name next ih => exact ih _ trail hadd
  | call name input args next ih =>
    have hcalled := hcaller name input args trail.state (n + trail.nested)
    unfold Action.counted Action.run
    generalize caller name input args trail.state = called at hcalled ⊢
    generalize caller' name input args (trail.state, n + trail.nested) = called' at hcalled ⊢
    obtain ⟨result, state, nested, warnings⟩ := called
    obtain ⟨result', state', nested', warnings'⟩ := called'
    obtain ⟨hresult, hnested, hwarnings, hstate⟩ := hcalled
    simp only at hresult hnested hwarnings hstate
    subst hresult hnested hwarnings
    -- The action goes on from a trail that is counted, as the call was.
    have hnext : ∀ answer, (∀ h, result ≠ .error (.halt h)) →
        Trail.Counts (n + 1)
          ((next answer).run pools caller
            ⟨state, trail.nested + nested, trail.warnings ++ warnings⟩)
          ((next answer).counted.run pools caller'
            ⟨state', trail.nested + nested, trail.warnings ++ warnings⟩) := by
      intro answer hreturns
      rw [hstate hreturns, Nat.add_assoc]
      refine ih answer ⟨state, trail.nested + nested, trail.warnings ++ warnings⟩ fun s => ?_
      rw [Nat.add_right_comm]
    cases result with
    | ok v => exact hnext (.ok v) (fun h hh => by cases hh)
    | error failed =>
      cases failed with
      | error e => exact hnext (.error e) (fun h hh => by cases hh)
      | halt h => exact ⟨rfl, rfl, rfl, fun hreturns => absurd rfl (hreturns h)⟩

/-- An invocation adds one for itself and one for every call below it. -/
theorem Operator.invoke_counted (pools : Option PoolStore) {caller : Caller σ}
    {caller' : Caller (σ × Nat)}
    (hcaller : ∀ name input args s n,
      Trail.Counts n (caller name input args s) (caller' name input args (s, n)))
    (op : Operator σ) (input : Value) (args : Arguments) (s : σ) (n : Nat) :
    Trail.Counts (n + 1) (op.invoke pools caller input args s)
      (op.counted.invoke pools caller' input args (s, n)) := by
  have hrun := fun action => Action.run_counted pools hcaller action n { state := s }
  have hinvoke : op.counted.invoke pools caller' input args (s, n) =
      Action.run pools caller' (if op.arity.admits args.length then (op.body input args).counted
        else (Action.finish (Attempt.refuse (.arity op.arity.render args.length))).counted)
        { state := (s, n) } := rfl
  rw [hinvoke, Operator.invoke]
  split
  · exact hrun (op.body input args)
  · exact hrun (.finish (Attempt.refuse (.arity op.arity.render args.length)))

namespace Host

variable {host : Host σ}

/-- A call by name adds as many as it counts, however deep the calls below it go. -/
theorem call_counted (host : Host σ) (pools : PoolStore) (allowance depth : Nat) (name : String)
    (input : Value) (args : Arguments) (s : σ) (n : Nat) :
    Trail.Counts n (host.call pools allowance depth name input args s)
      (host.counted.call pools allowance depth name input args (s, n)) := by
  induction allowance generalizing depth name input args s n with
  | zero => exact ⟨rfl, rfl, rfl, fun hreturns => absurd rfl (hreturns _)⟩
  | succ allowance ih =>
    unfold Host.call
    split
    · exact ⟨rfl, rfl, rfl, fun hreturns => absurd rfl (hreturns _)⟩
    · have hresolve : host.counted.resolve name (.ofInput input (depth + 1)) (s, n) =
          ((host.resolve name (.ofInput input (depth + 1)) s).1.map Operator.counted,
            ((host.resolve name (.ofInput input (depth + 1)) s).2, n)) := rfl
      rw [hresolve]
      rcases host.resolve name (.ofInput input (depth + 1)) s with ⟨e | op, t⟩
      · exact ⟨rfl, rfl, rfl, fun _ => rfl⟩
      · obtain ⟨hresult, hnested, hwarnings, hstate⟩ :=
          Operator.invoke_counted (some pools) (ih (depth + 1)) op input args t n
        refine ⟨hresult, congrArg (· + 1) hnested, hwarnings, fun hreturns => ?_⟩
        let invoked' := op.counted.invoke (some pools)
          (host.counted.call pools allowance (depth + 1)) input args (t, n)
        show (host.record name op.tier invoked'.1.isOk invoked'.2.state.1, invoked'.2.state.2) = _
        rw [hstate hreturns, ← hresult, Nat.add_assoc n 1, Nat.add_comm 1]

/-- A host that counts answers as the original does, and has counted the calls so far. -/
theorem mirrors_counted (host : Host σ) :
    host.Mirrors (fun n s counted => counted = (s, n)) host.counted where
  resolve name profile hs := by rw [hs]; rfl
  found {n s s'} name profile hs := by
    have hresolve : (host.counted.resolve name profile (s, n)).1 =
        (host.resolve name profile s).1.map Operator.counted := rfl
    rw [hs, hresolve]
    cases (host.resolve name profile s).1 with
    | error e => rfl
    | ok op =>
      refine ⟨rfl, fun {n s s'} pools depth input args hs => ?_⟩
      rw [hs]
      obtain ⟨hresult, hnested, hwarnings, hstate⟩ := Operator.invoke_counted (some pools)
        (host.call_counted pools (nestingAllowance - depth) depth) op input args s n
      refine ⟨hresult, hnested, hwarnings, fun hreturns => ?_⟩
      rw [← Nat.add_assoc]
      exact hstate hreturns
  record name tier success hs := by rw [hs]; rfl
  preload library hs := by rw [hs]; exact ⟨rfl, rfl⟩
  drainWarnings hs := by rw [hs]; exact ⟨rfl, rfl⟩
  isCancelled hs := by rw [hs]; rfl

end Host

/-- An engine on a host that counts. -/
def Engine.counted (engine : Engine σ) : Engine (σ × Nat) :=
  { engine with host := engine.host.counted }

/-- A run on a host that counts is the same run, and at its end the number is that of the calls
which the run has counted. -/
theorem Engine.run_counted {engine : Engine σ} {program : Program} {s : σ}
    {finished : Finished σ} (hrun : engine.run program s = .ok finished) :
    engine.counted.run program (s, 0) =
      .ok { report := finished.report, events := finished.events, channel := finished.channel
            state := (finished.state, finished.report.metrics.operatorCalls) } := by
  have hconfig : engine.counted.config = engine.config := rfl
  have hstart : (s, 0) = (s, 0) := rfl
  have hlockstep := Engine.run_lockstep hconfig rfl engine.host.mirrors_counted program hstart
  rw [hrun] at hlockstep
  match hcounted : engine.counted.run program (s, 0) with
  | .error halted =>
    rw [hcounted] at hlockstep
    exact hlockstep.elim
  | .ok ⟨report, events, channel, state⟩ =>
    rw [hcounted] at hlockstep
    obtain ⟨hreport, hevents, hstate⟩ := hlockstep
    have hchannel := channel_congr hrun hcounted hevents rfl
    simp only at hreport hevents hchannel hstate
    rw [hreport, hevents, hchannel, hstate]

end Sluice
