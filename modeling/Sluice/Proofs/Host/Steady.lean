/-
  Sluice.Proofs.Host.Steady

  Hosts that stay within a set of states. A run acts on its host's state only by resolving
  names, recording outcomes, loading libraries and performing operators, so a set of states
  that these four never leave is never left by a run. `Steady` says so of a host, on the
  actions of the operators it finds; `Steady.invoke_state` carries it through a whole invocation
  with all the calls below it.

  Main statement: the host of a session without operators of its own never cancels itself.
-/

import Sluice.Proofs.Host.Requests
import Sluice.Session

namespace Sluice

variable {σ : Type}

/-- An action never leads the host out of a set of states. -/
def Action.StaysIn (P : σ → Prop) : Action σ → Prop
  | .finish _ => True
  | .call _ _ _ next => ∀ result, (next result).StaysIn P
  | .readPool _ next => ∀ value, (next value).StaysIn P
  | .warn _ next => next.StaysIn P
  | .perform effect => ∀ s, P s → P (effect s).2

/-- The work of an operator never leads the host out of a set of states. -/
def Operator.StaysIn (P : σ → Prop) (op : Operator σ) : Prop :=
  ∀ input args, (op.body input args).StaysIn P

namespace Host

/-- A run never leads the host out of a set of states. -/
structure Steady (host : Host σ) (P : σ → Prop) : Prop where
  resolve : ∀ name profile s, P s → P (host.resolve name profile s).2
  found : ∀ name profile s op, P s → (host.resolve name profile s).1 = .ok op → op.StaysIn P
  record : ∀ name tier success s, P s → P (host.record name tier success s)
  preload : ∀ library s, P s → P (host.preload library s).2

/-- From a state of the set on, the host is never cancelled. -/
structure NeverCancelled (host : Host σ) (P : σ → Prop) : Prop extends host.Steady P where
  running : ∀ s, P s → host.isCancelled s = false

/-- Operators that the host finds come to a result or a refusal, never to a halt. -/
def OperatorsReturn (host : Host σ) (P : σ → Prop) : Prop :=
  ∀ name profile s op, P s → (host.resolve name profile s).1 = .ok op →
    ∀ pools depth input args t h, P t →
      (op.invoke (some pools) (host.caller pools depth) input args t).1 ≠ .error (.halt h)

end Host

-- ============================================================================
-- Whole invocations
-- ============================================================================

/-- Performing an action stays within a set of states if its calls do. -/
theorem Action.run_staysIn {P : σ → Prop} {pools : Option PoolStore} {caller : Caller σ}
    (hcaller : ∀ name input args s, P s → P (caller name input args s).2.state)
    (action : Action σ) (haction : action.StaysIn P) (trail : Trail σ) (htrail : P trail.state) :
    P (action.run pools caller trail).2.state := by
  induction action generalizing trail with
  | finish result => exact htrail
  | perform effect => exact haction trail.state htrail
  | warn message next ih => exact ih haction _ htrail
  | readPool name next ih => exact ih _ (haction _) trail htrail
  | call name input args next ih =>
    have hcalled := hcaller name input args trail.state htrail
    unfold Action.run
    match hcall : caller name input args trail.state with
    | (.ok v, inner) =>
      rw [hcall] at hcalled
      exact ih (.ok v) (haction _) _ hcalled
    | (.error (.error e), inner) =>
      rw [hcall] at hcalled
      exact ih (.error e) (haction _) _ hcalled
    | (.error (.halt h), inner) =>
      rw [hcall] at hcalled
      exact hcalled

/-- Invoking an operator stays within a set of states if its calls do. -/
theorem Operator.invoke_staysIn {P : σ → Prop} {op : Operator σ} (hop : op.StaysIn P)
    {pools : Option PoolStore} {caller : Caller σ}
    (hcaller : ∀ name input args s, P s → P (caller name input args s).2.state)
    (input : Value) (args : Arguments) (s : σ) (hs : P s) :
    P (op.invoke pools caller input args s).2.state := by
  unfold Operator.invoke
  split
  · exact Action.run_staysIn hcaller _ (hop input args) { state := s } hs
  · exact hs

namespace Host

variable {host : Host σ} {P : σ → Prop}

/-- A call by name stays within a set of states, however deep the calls below it go. -/
theorem Steady.call_state (h : host.Steady P) (pools : PoolStore) (allowance depth : Nat)
    (name : String) (input : Value) (args : Arguments) (s : σ) (hs : P s) :
    P (host.call pools allowance depth name input args s).2.state := by
  induction allowance generalizing depth name input args s with
  | zero => exact hs
  | succ allowance ih =>
    unfold Host.call
    split
    · exact hs
    · have hres := h.resolve name (.ofInput input (depth + 1)) s hs
      have hfound := h.found name (.ofInput input (depth + 1)) s
      match hr : host.resolve name (.ofInput input (depth + 1)) s with
      | (.error e, s') =>
        rw [hr] at hres
        exact hres
      | (.ok op, s') =>
        rw [hr] at hres hfound
        exact h.record _ _ _ _ (Operator.invoke_staysIn (hfound op hs rfl) (ih (depth + 1))
          input args s' hres)

/-- Invoking an operator that the host found stays within a set of states. -/
theorem Steady.invoke_state (h : host.Steady P) {op : Operator σ} (hop : op.StaysIn P)
    (pools : PoolStore) (depth : Nat) (input : Value) (args : Arguments) (s : σ) (hs : P s) :
    P (op.invoke (some pools) (host.caller pools depth) input args s).2.state :=
  Operator.invoke_staysIn hop (h.call_state pools (nestingAllowance - depth) depth) input args s hs

end Host

/-- An action stays within a set of states if the effects that it asks for do. -/
theorem Action.AsksOnly.staysIn {calls : String → Arguments → Prop}
    {acts : (σ → Attempt Value × σ) → Prop} {action : Action σ} (h : action.AsksOnly calls acts)
    {P : σ → Prop} (hacts : ∀ effect s, acts effect → P s → P (effect s).2) :
    action.StaysIn P := by
  induction action with
  | finish result => trivial
  | perform effect => exact fun s => hacts effect s h
  | warn message next ih => exact ih h
  | readPool name next ih => exact fun value => ih value (h value)
  | call name input args next ih => exact fun result => ih result (h.2 result)

-- ============================================================================
-- Hosts
-- ============================================================================

/-- A host on which every name is the operator that hands its input on. -/
def Host.echo : Host Unit where
  resolve name _ s := (.ok ⟨name, .any, .core, "echo", fun input _ => .finish (.ok input)⟩, s)
  record _ _ _ s := s
  preload _ s := (.ok (), s)
  drainWarnings s := ([], s)
  isCancelled _ := false

/-- The engine on this host. -/
def Engine.echo : Engine Unit :=
  { host := .echo, config := {} }

theorem Host.echo_neverCancelled : Host.echo.NeverCancelled fun _ => True where
  resolve _ _ _ hs := hs
  found _ _ _ _ _ h := by
    cases h
    exact fun _ _ => trivial
  record _ _ _ _ hs := hs
  preload _ _ hs := hs
  running _ _ := rfl

theorem Host.echo_operatorsReturn : Host.echo.OperatorsReturn fun _ => True := by
  intro name profile s op _ hop pools depth input args t h _
  cases hop
  simp [Operator.invoke, Arity.admits, Arity.any, Action.run]

/-- A script leaves all of a session as it was but its own state. -/
theorem Session.Scripted.snd_eq {τ : Type} {tiers : Tiers τ}
    {effect : Session τ → Attempt Value × Session τ} (h : Scripted tiers effect) (s : Session τ) :
    ∃ own, (effect s).2 = { s with own } := by
  obtain ⟨script, -, input, args, heffect⟩ := h
  exact ⟨_, congrArg Prod.snd (heffect s)⟩

/-- A session without operators of its own never cancels itself. -/
theorem Session.host_neverCancelled {τ : Type} (tiers : Tiers τ) :
    (Session.host [] tiers).NeverCancelled fun s => s.cancelled = false where
  resolve _ _ _ hs := hs
  found _ _ _ _ _ h input args := by
    refine (resolve_callsAs h input args).staysIn fun effect s hscript hs => ?_
    obtain ⟨own, hown⟩ := hscript.snd_eq s
    rw [hown]
    exact hs
  record _ _ _ _ hs := hs
  preload _ _ hs := hs
  running _ hs := hs

end Sluice
