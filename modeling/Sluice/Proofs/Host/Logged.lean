/-
  Sluice.Proofs.Host.Logged

  A host that remembers what it hears. Beside the state of the original host it keeps the outcome
  of every invocation, in order, and does nothing else with it. A run on this host is the run on
  the original one, so its log is what the original host has heard in that run.
-/

import Sluice.Proofs.Run.Lockstep
import Sluice.Proofs.Run.Sending

namespace Sluice

variable {σ τ : Type}

/-- What a host hears of an invocation. -/
structure Outcome where
  name : String
  tier : Tier
  success : Bool
deriving Repr, DecidableEq

/-- An action beside which a log is kept. -/
def Action.logged : Action σ → Action (σ × List Outcome)
  | .finish result => .finish result
  | .call name input args next => .call name input args fun result => (next result).logged
  | .readPool name next => .readPool name fun value => (next value).logged
  | .warn message next => .warn message next.logged
  | .perform effect => .perform fun s => ((effect s.1).1, ((effect s.1).2, s.2))

/-- An operator beside which a log is kept. -/
def Operator.logged (op : Operator σ) : Operator (σ × List Outcome) where
  name := op.name
  arity := op.arity
  tier := op.tier
  library := op.library
  body input args := (op.body input args).logged

/-- A host that keeps a log of what it hears. -/
def Host.logged (host : Host σ) : Host (σ × List Outcome) where
  resolve name profile s :=
    ((host.resolve name profile s.1).1.map Operator.logged,
      ((host.resolve name profile s.1).2, s.2))
  record name tier success s :=
    (host.record name tier success s.1, s.2 ++ [⟨name, tier, success⟩])
  preload library s := ((host.preload library s.1).1, ((host.preload library s.1).2, s.2))
  drainWarnings s := ((host.drainWarnings s.1).1, ((host.drainWarnings s.1).2, s.2))
  isCancelled s := host.isCancelled s.1

namespace Engine

/-- An engine whose host keeps a log. -/
def logged (engine : Engine σ) : Engine (σ × List Outcome) :=
  { engine with host := engine.host.logged }

/-- What the host of an engine hears in a run. -/
def outcomes (engine : Engine σ) (program : Program) (s : σ) : List Outcome :=
  match engine.logged.run program (s, []) with
  | .ok finished => finished.state.2
  | .error _ => []

end Engine

-- ============================================================================
-- The log changes nothing
-- ============================================================================

theorem Action.like_logged (action : Action σ) :
    action.Like (fun s t => t.1 = s) (fun _ => False) (fun _ => True) (fun _ => True)
      action.logged := by
  induction action with
  | finish result => exact .finish result
  | warn message next ih => exact .warn message ih
  | readPool name next ih => exact .readPool trivial ih
  | call name input args next ih => exact .call input args trivial ih
  | perform effect =>
    refine .perform (fun s t hs => ?_) fun _ hnever => hnever
    subst hs
    exact ⟨rfl, rfl⟩

theorem Host.follows_logged (host : Host σ) :
    host.Follows (fun _ => True)
      (Operator.Like (fun s t => t.1 = s) (fun _ => False) (fun _ => True) fun _ => True)
      (fun _ s t => t.1 = s) (fun _ => False) host.logged where
  resolve {n s t name} profile _ hs := by
    subst hs
    have hlogged : host.logged.resolve name profile t =
        ((host.resolve name profile t.1).1.map Operator.logged,
          ((host.resolve name profile t.1).2, t.2)) := rfl
    rw [hlogged]
    match host.resolve name profile t.1 with
    | (.ok op, s') =>
      exact .found ⟨rfl, rfl, fun input args => (op.body input args).like_logged⟩ rfl
    | (.error e, s') => exact .missing e rfl
  record name tier success hs := by
    subst hs
    exact .inl rfl
  preload library hs := by
    subst hs
    exact ⟨rfl, rfl⟩
  isCancelled hs := by
    subst hs
    rfl
  steady := host.steady_nowhere

/-- A run on a host that keeps a log is the same run, and at its end the log is what the host has
heard. -/
theorem Engine.run_logged {engine : Engine σ} {program : Program} {s : σ}
    {finished : Finished σ} (hrun : engine.run program s = .ok finished) :
    engine.logged.run program (s, []) =
      .ok { report := finished.report, events := finished.events, channel := finished.channel
            state := (finished.state, engine.outcomes program s) } := by
  have hhost : engine.host.Follows (fun _ => True)
      (Operator.Follows Eq (fun _ s t => t.1 = s) (fun _ => False) engine.host
        engine.logged.host)
      (fun _ s t => t.1 = s) (fun _ => False) engine.logged.host :=
    engine.host.follows_logged.mono (fun _ hname => hname) fun op op' hop =>
      hop.follows engine.host.follows_logged fun hpools _ _ => by rw [hpools]
  have hmeets := run_meets hhost rfl rfl (fun hs => by subst hs; exact ⟨rfl, rfl⟩) program
    (show (s, ([] : List Outcome)).1 = s from rfl)
  rw [hrun] at hmeets
  unfold outcomes
  match hlogged : engine.logged.run program (s, []) with
  | .error halted =>
    rw [hlogged] at hmeets
    cases hmeets with
    | lost hlost => exact hlost.elim fun _ hnever => hnever.elim
  | .ok ⟨report, events, channel, state, log⟩ =>
    rw [hlogged] at hmeets
    cases hmeets with
    | finished hreport hevents hstate =>
      have hchannel := channel_congr hrun hlogged hevents rfl
      simp only at hreport hevents hchannel hstate
      rw [hreport, hevents, hchannel, hstate]
    | lost hlost => exact hlost.elim fun _ hnever => hnever.elim

end Sluice
