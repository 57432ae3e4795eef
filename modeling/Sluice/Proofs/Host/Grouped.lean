/-
  Sluice.Proofs.Host.Grouped

  A host that remembers what it hears by attempt. The outcomes of the calls that an operator makes
  are heard before its own. Every operator found by this host counts its calls, and as it ends it
  makes one group of what was heard in them, to which its own outcome is added when the host hears
  of it. A call of a name without an implementation leaves a group with nothing in it. So each
  attempt leaves one group: the outcomes of all calls below it, and at last its own.

  A run on this host is the run on the original one, and all groups together are what the original
  host has heard.
-/

import Sluice.Proofs.Host.Logged

namespace Sluice

variable {σ α : Type}

-- ============================================================================
-- Groups
-- ============================================================================

/-- The last ones of some groups become one. -/
def gatherLast (n : Nat) (groups : List (List α)) : List (List α) :=
  groups.take (groups.length - n) ++ [(groups.drop (groups.length - n)).flatten]

/-- One more element for the last group. -/
def addToLast (a : α) (groups : List (List α)) : List (List α) :=
  groups.dropLast ++ [groups.getLastD [] ++ [a]]

theorem gatherLast_append (groups last : List (List α)) :
    gatherLast last.length (groups ++ last) = groups ++ [last.flatten] := by
  rw [gatherLast, List.length_append, Nat.add_sub_cancel, List.take_left, List.drop_left]

theorem addToLast_append (a : α) (groups : List (List α)) (group : List α) :
    addToLast a (groups ++ [group]) = groups ++ [group ++ [a]] := by
  simp [addToLast]

theorem flatten_addToLast (a : α) (groups : List (List α)) :
    (addToLast a groups).flatten = groups.flatten ++ [a] := by
  rcases List.eq_nil_or_concat groups with rfl | ⟨front, group, rfl⟩
  · rfl
  · rw [List.concat_eq_append, addToLast_append]
    simp

-- ============================================================================
-- The host
-- ============================================================================

/-- An action that has made some calls, and gathers what was heard in its calls as it ends. -/
def Action.grouped : (calls : Nat) → Action σ → Action (σ × List (List Outcome))
  | calls, .finish result => .perform fun s => (result, (s.1, gatherLast calls s.2))
  | calls, .call name input args next =>
    .call name input args fun result => (next result).grouped (calls + 1)
  | calls, .readPool name next => .readPool name fun value => (next value).grouped calls
  | calls, .warn message next => .warn message (next.grouped calls)
  | calls, .perform effect =>
    .perform fun s => ((effect s.1).1, ((effect s.1).2, gatherLast calls s.2))

/-- An operator that gathers what was heard in its calls, also where it refuses its arguments. -/
def Operator.grouped (op : Operator σ) : Operator (σ × List (List Outcome)) where
  name := op.name
  arity := .any
  tier := op.tier
  library := op.library
  body input args :=
    if op.arity.admits args.length then (op.body input args).grouped 0
    else (Action.finish (Attempt.refuse (.arity op.arity.render args.length))).grouped 0

/-- A host that keeps what it hears by attempt. -/
def Host.grouped (host : Host σ) : Host (σ × List (List Outcome)) where
  resolve name profile s :=
    match host.resolve name profile s.1 with
    | (.ok op, t) => (.ok op.grouped, (t, s.2))
    | (.error e, t) => (.error e, (t, s.2 ++ [[]]))
  record name tier success s :=
    (host.record name tier success s.1, addToLast ⟨name, tier, success⟩ s.2)
  preload library s := ((host.preload library s.1).1, ((host.preload library s.1).2, s.2))
  drainWarnings s := ((host.drainWarnings s.1).1, ((host.drainWarnings s.1).2, s.2))
  isCancelled s := host.isCancelled s.1

namespace Engine

/-- An engine whose host keeps what it hears by attempt. -/
def grouped (engine : Engine σ) : Engine (σ × List (List Outcome)) :=
  { engine with host := engine.host.grouped }

/-- What the host of an engine hears in a run, by attempt of a node or a lens step: the outcomes of
the calls below it, and at last its own. -/
def attempts (engine : Engine σ) (program : Program) (s : σ) : List (List Outcome) :=
  match engine.grouped.run program (s, []) with
  | .ok finished => finished.state.2
  | .error _ => []

end Engine

namespace Host

variable {host : Host σ} {name : String} {profile : CallProfile} {s t : σ} {op : Operator σ}
  {e : ResolveError}

theorem resolve_logged_ok (h : host.resolve name profile s = (.ok op, t)) (log : List Outcome) :
    host.logged.resolve name profile (s, log) = (.ok op.logged, (t, log)) := by
  show ((host.resolve name profile s).1.map Operator.logged,
    ((host.resolve name profile s).2, log)) = _
  rw [h]
  rfl

theorem resolve_logged_error (h : host.resolve name profile s = (.error e, t))
    (log : List Outcome) :
    host.logged.resolve name profile (s, log) = (.error e, (t, log)) := by
  show ((host.resolve name profile s).1.map Operator.logged,
    ((host.resolve name profile s).2, log)) = _
  rw [h]
  rfl

theorem resolve_grouped_ok (h : host.resolve name profile s = (.ok op, t))
    (groups : List (List Outcome)) :
    host.grouped.resolve name profile (s, groups) = (.ok op.grouped, (t, groups)) := by
  simp only [grouped, h]

theorem resolve_grouped_error (h : host.resolve name profile s = (.error e, t))
    (groups : List (List Outcome)) :
    host.grouped.resolve name profile (s, groups) = (.error e, (t, groups ++ [[]])) := by
  simp only [grouped, h]

end Host

-- ============================================================================
-- Invocations
-- ============================================================================

/-- Outcomes of which the second has one more group, with what the first has logged; unless there
was a halt. -/
structure Trail.Groups (log : List Outcome) (groups : List (List Outcome))
    (out : Attempt Value × Trail (σ × List Outcome))
    (out' : Attempt Value × Trail (σ × List (List Outcome))) : Prop where
  result : out.1 = out'.1
  nested : out.2.nested = out'.2.nested
  warnings : out.2.warnings = out'.2.warnings
  state : (∀ h, out.1 ≠ .error (.halt h)) → ∃ s group, out.2.state = (s, log ++ group) ∧
    out'.2.state = (s, groups ++ [group]) ∧ group.length = out.2.nested

/-- An action whose calls leave a group each leaves one group in their place. -/
theorem Action.run_grouped (pools : Option PoolStore) {caller : Caller (σ × List Outcome)}
    {caller' : Caller (σ × List (List Outcome))}
    (hcaller : ∀ name input args s log groups, Trail.Groups log groups
      (caller name input args (s, log)) (caller' name input args (s, groups)))
    (action : Action σ) (log : List Outcome) (groups made : List (List Outcome)) (s : σ)
    (warnings : List String) :
    Trail.Groups log groups
      (action.logged.run pools caller
        ⟨(s, log ++ made.flatten), made.flatten.length, warnings⟩)
      ((action.grouped made.length).run pools caller'
        ⟨(s, groups ++ made), made.flatten.length, warnings⟩) := by
  induction action generalizing made s warnings with
  | finish result =>
    refine ⟨rfl, rfl, rfl, fun _ => ⟨s, made.flatten, rfl, ?_, rfl⟩⟩
    exact congrArg (Prod.mk s) (gatherLast_append groups made)
  | perform effect =>
    refine ⟨rfl, rfl, rfl, fun _ => ⟨(effect s).2, made.flatten, rfl, ?_, rfl⟩⟩
    exact congrArg (Prod.mk (effect s).2) (gatherLast_append groups made)
  | warn message next ih => exact ih made s (warnings ++ [message])
  | readPool name next ih => exact ih _ made s warnings
  | call name input args next ih =>
    have hcalled := hcaller name input args s (log ++ made.flatten) (groups ++ made)
    unfold Action.logged Action.grouped Action.run
    simp only
    generalize caller name input args (s, log ++ made.flatten) = called at hcalled ⊢
    generalize caller' name input args (s, groups ++ made) = called' at hcalled ⊢
    obtain ⟨result, state, nested, warned⟩ := called
    obtain ⟨result', state', nested', warned'⟩ := called'
    obtain ⟨hresult, hnested, hwarnings, hstate⟩ := hcalled
    simp only at hresult hnested hwarnings hstate
    subst hresult hnested hwarnings
    -- The action goes on with one group more than before.
    have hnext : ∀ answer, (∀ h, result ≠ .error (.halt h)) →
        Trail.Groups log groups
          ((next answer).logged.run pools caller
            ⟨state, made.flatten.length + nested, warnings ++ warned⟩)
          (((next answer).grouped (made.length + 1)).run pools caller'
            ⟨state', made.flatten.length + nested, warnings ++ warned⟩) := by
      intro answer hreturns
      obtain ⟨t, group, hlog, hgroups, hlength⟩ := hstate hreturns
      have h := ih answer (made ++ [group]) t (warnings ++ warned)
      rw [List.flatten_concat, List.length_append, List.length_append, List.length_singleton,
        hlength, ← List.append_assoc, ← List.append_assoc] at h
      rw [hlog, hgroups]
      exact h
    cases result with
    | ok v => exact hnext (.ok v) (fun h hh => by cases hh)
    | error failed =>
      cases failed with
      | error e => exact hnext (.error e) (fun h hh => by cases hh)
      | halt h => exact ⟨rfl, rfl, rfl, fun hreturns => absurd rfl (hreturns h)⟩

/-- An invocation leaves one group, of the outcomes of the calls below it. -/
theorem Operator.invoke_grouped (pools : Option PoolStore) {caller : Caller (σ × List Outcome)}
    {caller' : Caller (σ × List (List Outcome))}
    (hcaller : ∀ name input args s log groups, Trail.Groups log groups
      (caller name input args (s, log)) (caller' name input args (s, groups)))
    (op : Operator σ) (input : Value) (args : Arguments) (s : σ) (log : List Outcome)
    (groups : List (List Outcome)) :
    Trail.Groups log groups (op.logged.invoke pools caller input args (s, log))
      (op.grouped.invoke pools caller' input args (s, groups)) := by
  have hrun := fun action => Action.run_grouped pools hcaller action log groups [] s []
  rw [List.flatten_nil, List.append_nil, List.append_nil] at hrun
  have hinvoke : op.grouped.invoke pools caller' input args (s, groups) =
      Action.run pools caller' (if op.arity.admits args.length then (op.body input args).grouped 0
        else (Action.finish (Attempt.refuse (.arity op.arity.render args.length))).grouped 0)
        { state := (s, groups) } := rfl
  rw [hinvoke, Operator.invoke]
  show Trail.Groups log groups (if op.arity.admits args.length then _ else _) _
  split
  · exact hrun (op.body input args)
  · exact hrun (.finish (Attempt.refuse (.arity op.arity.render args.length)))

namespace Host

/-- A call by name leaves one group, which ends with its own outcome if an operator was found. -/
theorem call_grouped (host : Host σ) (pools : PoolStore) (allowance depth : Nat) (name : String)
    (input : Value) (args : Arguments) (s : σ) (log : List Outcome)
    (groups : List (List Outcome)) :
    Trail.Groups log groups
      (host.logged.call pools allowance depth name input args (s, log))
      (host.grouped.call pools allowance depth name input args (s, groups)) := by
  induction allowance generalizing depth name input args s log groups with
  | zero => exact ⟨rfl, rfl, rfl, fun hreturns => absurd rfl (hreturns _)⟩
  | succ allowance ih =>
    unfold Host.call
    split
    · exact ⟨rfl, rfl, rfl, fun hreturns => absurd rfl (hreturns _)⟩
    · rcases hresolve : host.resolve name (.ofInput input (depth + 1)) s with ⟨e | op, t⟩
      -- No operator is found, and the group stays empty.
      · rw [resolve_logged_error hresolve, resolve_grouped_error hresolve]
        exact ⟨rfl, rfl, rfl, fun _ => ⟨t, [], by rw [List.append_nil], rfl, rfl⟩⟩
      · rw [resolve_logged_ok hresolve, resolve_grouped_ok hresolve]
        obtain ⟨hresult, hnested, hwarnings, hstate⟩ :=
          Operator.invoke_grouped (some pools) (ih (depth + 1)) op input args t log groups
        refine ⟨hresult, congrArg (· + 1) hnested, hwarnings, fun hreturns => ?_⟩
        obtain ⟨u, group, hlog, hgroups, hlength⟩ := hstate hreturns
        let invoked := op.logged.invoke (some pools)
          (host.logged.call pools allowance (depth + 1)) input args (t, log)
        let invoked' := op.grouped.invoke (some pools)
          (host.grouped.call pools allowance (depth + 1)) input args (t, groups)
        let outcome : Outcome := ⟨name, op.tier, invoked.1.isOk⟩
        refine ⟨host.record name op.tier invoked.1.isOk u, group ++ [outcome], ?_, ?_, ?_⟩
        · show (host.record name op.tier invoked.1.isOk invoked.2.state.1,
            invoked.2.state.2 ++ [outcome]) = _
          rw [hlog, List.append_assoc]
        · show (host.record name op.tier invoked'.1.isOk invoked'.2.state.1,
            addToLast ⟨name, op.tier, invoked'.1.isOk⟩ invoked'.2.state.2) = _
          rw [hgroups, addToLast_append, ← hresult]
        · show (group ++ [outcome]).length = invoked.2.nested + 1
          rw [List.length_append, hlength, List.length_singleton]

/-- An invocation from a node or a lens step leaves one group, of the outcomes below it. -/
theorem invoke_grouped (host : Host σ) (pools : PoolStore) (depth : Nat) (op : Operator σ)
    (input : Value) (args : Arguments) (s : σ) (log : List Outcome)
    (groups : List (List Outcome)) :
    Trail.Groups log groups
      (op.logged.invoke (some pools) (host.logged.caller pools depth) input args (s, log))
      (op.grouped.invoke (some pools) (host.grouped.caller pools depth) input args (s, groups)) :=
  Operator.invoke_grouped (some pools) (host.call_grouped pools (nestingAllowance - depth) depth)
    op input args s log groups

/-- A host that keeps groups answers as one that keeps a log, and has the log in its groups. -/
theorem mirrors_grouped (host : Host σ) :
    host.logged.Mirrors (fun _ s t => t.1 = s.1 ∧ t.2.flatten = s.2) host.grouped where
  resolve {n s t} name profile hs := by
    obtain ⟨s, log⟩ := s
    obtain ⟨t, groups⟩ := t
    obtain ⟨rfl, rfl⟩ := hs
    rcases hresolve : host.resolve name profile t with ⟨e | op, u⟩
    · rw [resolve_logged_error hresolve, resolve_grouped_error hresolve]
      exact ⟨rfl, by simp⟩
    · rw [resolve_logged_ok hresolve, resolve_grouped_ok hresolve]
      exact ⟨rfl, rfl⟩
  found {n s t} name profile hs := by
    obtain ⟨s, log⟩ := s
    obtain ⟨t, groups⟩ := t
    obtain ⟨rfl, rfl⟩ := hs
    rcases hresolve : host.resolve name profile t with ⟨e | op, u⟩
    · rw [resolve_logged_error hresolve, resolve_grouped_error hresolve]
    · rw [resolve_logged_ok hresolve, resolve_grouped_ok hresolve]
      refine ⟨rfl, fun {n s t} pools depth input args hs => ?_⟩
      obtain ⟨s, log⟩ := s
      obtain ⟨t, groups⟩ := t
      obtain ⟨rfl, rfl⟩ := hs
      obtain ⟨hresult, hnested, hwarnings, hstate⟩ :=
        host.invoke_grouped pools depth op input args t groups.flatten groups
      refine ⟨hresult, hnested, hwarnings, fun hreturns => ?_⟩
      obtain ⟨v, group, hlog, hgroups, -⟩ := hstate hreturns
      rw [hlog, hgroups]
      exact ⟨rfl, List.flatten_concat⟩
  record {n s t} name tier success hs := by
    obtain ⟨hstate, hgroups⟩ := hs
    refine ⟨congrArg (host.record name tier success) hstate, ?_⟩
    show (addToLast _ t.2).flatten = s.2 ++ [_]
    rw [flatten_addToLast, hgroups]
  preload library hs := by
    obtain ⟨hstate, hgroups⟩ := hs
    exact ⟨congrArg (fun s => (host.preload library s).1) hstate.symm,
      congrArg (fun s => (host.preload library s).2) hstate, hgroups⟩
  drainWarnings hs := by
    obtain ⟨hstate, hgroups⟩ := hs
    exact ⟨congrArg (fun s => (host.drainWarnings s).1) hstate.symm,
      congrArg (fun s => (host.drainWarnings s).2) hstate, hgroups⟩
  isCancelled hs := congrArg host.isCancelled hs.1.symm

end Host

/-- A run on a host that keeps what it hears by attempt is the same run, and what it has kept is
what the original host has heard. -/
theorem Engine.run_grouped {engine : Engine σ} {program : Program} {s : σ}
    {finished : Finished σ} (hrun : engine.run program s = .ok finished) :
    engine.grouped.run program (s, []) =
        .ok { report := finished.report, events := finished.events, channel := finished.channel
              state := (finished.state, engine.attempts program s) } ∧
      (engine.attempts program s).flatten = engine.outcomes program s := by
  have hconfig : engine.grouped.config = engine.logged.config := rfl
  have hstart : (s, ([] : List (List Outcome))).1 = (s, ([] : List Outcome)).1 ∧
      ([] : List (List Outcome)).flatten = [] := ⟨rfl, rfl⟩
  have hlockstep :=
    Engine.run_lockstep hconfig rfl engine.host.mirrors_grouped program hstart
  rw [run_logged hrun] at hlockstep
  unfold attempts
  match hgrouped : engine.grouped.run program (s, []) with
  | .error halted =>
    rw [hgrouped] at hlockstep
    exact hlockstep.elim
  | .ok ⟨report, events, channel, t, groups⟩ =>
    rw [hgrouped] at hlockstep
    obtain ⟨hreport, hevents, hstate, hgroups⟩ := hlockstep
    have hchannel := channel_congr hrun hgrouped hevents rfl
    simp only at hreport hevents hchannel hstate hgroups
    rw [hreport, hevents, hchannel, hstate]
    exact ⟨rfl, hgroups⟩

end Sluice
