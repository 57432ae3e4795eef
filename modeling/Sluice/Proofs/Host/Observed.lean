/-
  Sluice.Proofs.Host.Observed

  A session that keeps a log of what it is asked: which names it resolved, for which calls, and
  of which outcomes it heard, in order. It answers as any session does, and its scripts see the
  world beside the log. What is done on it does not depend on what is in the log already, and
  only adds to it.

  A name that no domain library declares is served by the core library in every state of the
  registry, and nothing is loaded for it.
-/

import Sluice.Proofs.Host.Calls
import Sluice.Proofs.Host.Follows

namespace Sluice

variable {σ τ : Type}

-- ============================================================================
-- Names of the core library
-- ============================================================================

/-- In every state a registry serves a name of the core library from it if no domain library
declares the name. -/
theorem Registry.resolve_core {r : Registry} {name : String} {op : Operator σ}
    (hcore : Core.library.operator? name = some op)
    (hundeclared : ∀ library, name ∉ Domain.declared library) (overflow : Overflow)
    (scripts : Library σ) (profile : CallProfile) :
    r.resolve overflow scripts name profile = (.ok op, r) := by
  have hproviders : r.providers name = [] := by
    unfold providers
    rw [List.filter_eq_nil_iff]
    intro library _ hdeclares
    exact hundeclared library (List.contains_iff_mem.1 hdeclares)
  have hpreferred : r.preferred? name profile = none := by
    unfold preferred?
    rw [hproviders]
    split <;> rfl
  unfold resolve
  rw [hcore, hpreferred]
  rfl

/-- No domain library declares a name if none of those that exist does. -/
theorem Domain.not_declared {name : String}
    (h : ∀ l ∈ (librariesWith .checked : List (Library Unit)), name ∉ l.names)
    (library : String) :
    name ∉ declared library := by
  unfold declared
  match hlibrary : library? (σ := Unit) .checked library with
  | none => exact List.not_mem_nil
  | some l => exact h l (List.mem_of_find?_eq_some hlibrary)

-- ============================================================================
-- The log
-- ============================================================================

/-- What a host is asked and told while a node runs. -/
inductive HostCall where
  | resolved (name : String) (profile : CallProfile)
  | recorded (name : String) (tier : Tier) (success : Bool)
deriving Repr, DecidableEq

/-- A world in which scripts run, with a log beside it. -/
abbrev Session.Observed (τ : Type) := Session (τ × List HostCall)

/-- The same implementations, where a log is kept beside the world. -/
def Tiers.besideLog (tiers : Tiers τ) : Tiers (τ × List HostCall) where
  overflow := tiers.overflow
  scripts := tiers.scripts.map fun (name, operation) =>
    (name, operation.within Prod.fst fun own s => (own, s.2))

namespace Session

/-- The session with one call more in its log. -/
def noting (s : Observed τ) (call : HostCall) : Observed τ :=
  { s with own := (s.own.1, s.own.2 ++ [call]) }

/-- The session with some calls before all others in its log. -/
def following (front : List HostCall) (s : Observed τ) : Observed τ :=
  { s with own := (s.own.1, front ++ s.own.2) }

/-- The session with an empty log. -/
def unlogged (s : Observed τ) : Observed τ :=
  { s with own := (s.own.1, []) }

/-- The surroundings of a session that keeps a log of what it is asked. -/
def observed (tiers : Tiers τ) : Host (Observed τ) where
  resolve name profile s :=
    (host [] tiers.besideLog).resolve name profile (s.noting (.resolved name profile))
  record name tier success s :=
    (host [] tiers.besideLog).record name tier success (s.noting (.recorded name tier success))
  preload := (host [] tiers.besideLog).preload
  drainWarnings := (host [] tiers.besideLog).drainWarnings
  isCancelled := (host [] tiers.besideLog).isCancelled

/-- A call is noted behind whatever comes first. -/
theorem noting_following (front : List HostCall) (s : Observed τ) (call : HostCall) :
    (s.following front).noting call = (s.noting call).following front := by
  unfold noting following
  rw [List.append_assoc]

/-- The session is all that is beside its log, and its log, where the log starts anywhere. -/
theorem following_own (s : Observed τ) : s.unlogged.following s.own.2 = s := by
  unfold following unlogged
  rw [List.append_nil]

theorem following_noting (s : Observed τ) (call : HostCall) :
    s.unlogged.following (s.own.2 ++ [call]) = s.noting call := by
  unfold following noting unlogged
  rw [List.append_nil]

variable {tiers : Tiers τ}

theorem resolve_following (front : List HostCall) (name : String) (profile : CallProfile)
    (s : Observed τ) :
    (observed tiers).resolve name profile (s.following front) =
      (((observed tiers).resolve name profile s).1,
        ((observed tiers).resolve name profile s).2.following front) := by
  show (host [] tiers.besideLog).resolve name profile
    ((s.following front).noting (.resolved name profile)) = _
  rw [noting_following]
  rfl

theorem record_following (front : List HostCall) (name : String) (tier : Tier) (success : Bool)
    (s : Observed τ) :
    (observed tiers).record name tier success (s.following front) =
      ((observed tiers).record name tier success s).following front := by
  show (host [] tiers.besideLog).record name tier success
    ((s.following front).noting (.recorded name tier success)) = _
  rw [noting_following]
  rfl

/-- Outcomes of the core library are noted, and no more comes of them. -/
theorem observed_record_core (name : String) (success : Bool) (s : Observed τ) :
    (observed tiers).record name .core success s = s.noting (.recorded name .core success) :=
  record_core tiers.besideLog name success _

/-- A session serves a name from the core library in every state if no domain library declares
it. -/
theorem observed_resolve_core {name : String} {op : Operator (Observed τ)}
    (hcore : Core.library.operator? name = some op)
    (hundeclared : ∀ library, name ∉ Domain.declared library) (profile : CallProfile)
    (s : Observed τ) :
    (observed tiers).resolve name profile s = (.ok op, s.noting (.resolved name profile)) := by
  have hregistry : s.registry.resolve tiers.overflow (scriptLibrary tiers.besideLog) name
      profile = (.ok op, s.registry) :=
    Registry.resolve_core hcore hundeclared _ _ profile
  show (s.noting (.resolved name profile)).onRegistry (fun r =>
    r.resolve tiers.overflow (scriptLibrary tiers.besideLog) name profile) = _
  unfold onRegistry noting
  simp only [hregistry]

-- ============================================================================
-- The log makes no difference
-- ============================================================================

/-- A script comes to the same whatever comes first in the log. -/
theorem Scripted.following {effect : Observed τ → Attempt Value × Observed τ}
    (h : Scripted tiers.besideLog effect) (front : List HostCall) (s : Observed τ) :
    effect (s.following front) = ((effect s).1, (effect s).2.following front) := by
  obtain ⟨script, hscript, input, args, heffect⟩ := h
  obtain ⟨original, -, rfl⟩ := List.mem_map.1 hscript
  rw [heffect, heffect]
  rfl

/-- Whatever a session that keeps a log finds does the same work whatever comes first in it. -/
theorem like_following {asks : String → Arguments → Prop} {action : Action (Observed τ)}
    (haction : action.AsksOnly asks (Scripted tiers.besideLog)) (front : List HostCall) :
    action.Like (fun s s' => s' = s.following front) (fun _ => False) (fun _ => True)
      (fun _ => True) action := by
  refine haction.like (fun _ _ => trivial) (fun _ _ => trivial) ?_ fun _ _ _ => False.elim
  rintro effect s _ hscript rfl
  rw [hscript.following]
  exact ⟨rfl, rfl⟩

/-- A session that keeps a log follows itself, whatever comes first in the log. -/
theorem follows_following (front : List HostCall) :
    (observed tiers).Follows (fun _ => True)
      (Operator.Like (fun s s' => s' = s.following front) (fun _ => False) (fun _ => True)
        fun _ => True)
      (fun _ s s' => s' = s.following front) (fun _ => False) (observed tiers) where
  resolve {n s s' name} profile _ hs := by
    subst hs
    rw [resolve_following]
    match hresolve : (observed tiers).resolve name profile s with
    | (.error e, t) => exact .missing e rfl
    | (.ok op, t) =>
      have hcalls : op.CallsAs (Scripted tiers.besideLog) name :=
        resolve_callsAs (congrArg Prod.fst hresolve)
      exact .found ⟨rfl, rfl, fun input args => like_following (hcalls input args) front⟩ rfl
  record name tier success hs := by
    subst hs
    exact .inl (record_following front name tier success _)
  preload library hs := by
    subst hs
    exact ⟨rfl, rfl⟩
  isCancelled hs := by
    subst hs
    rfl
  steady := (observed tiers).steady_nowhere

/-- An action comes to the same whatever comes first in the log. Unless it was halted, what it
adds to the log is the same as well. -/
theorem run_following {asks : String → Arguments → Prop} {action : Action (Observed τ)}
    (haction : action.AsksOnly asks (Scripted tiers.besideLog)) (pools : PoolStore)
    (allowance depth : Nat) (front : List HostCall) (s : Observed τ) :
    let out := action.run (some pools) ((observed tiers).call pools allowance depth) { state := s }
    let out' := action.run (some pools) ((observed tiers).call pools allowance depth)
      { state := s.following front }
    out'.1 = out.1 ∧
      ((∀ h, out.1 ≠ .error (.halt h)) → out'.2.state = out.2.state.following front) := by
  intro out out'
  have hmeets : Trail.Meets (fun _ s s' => s' = s.following front) (fun _ => False) 0 out out' := by
    refine (like_following haction front).run_meets (fun _ _ => rfl) ?_ ?_ 0 [] rfl
    · intro name input args t t' hname ht
      exact (follows_following front).call_meets (fun _ _ => rfl) allowance depth hname input args
        ht
    · intro name input args t ht
      exact ht.elim
  generalize out = left at hmeets ⊢
  generalize out' = right at hmeets ⊢
  cases hmeets with
  | same result nested warnings hstate => exact ⟨rfl, hstate⟩
  | lost hlost => exact hlost.elim fun _ hnever => hnever.elim

end Session

end Sluice
