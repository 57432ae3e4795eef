/-
  Sluice.Proofs.Host.Follows

  Two hosts of which one follows the other: related states lead to the same answers and to
  related states. Where the first comes to a state that is lost, nothing is said any more; it
  never comes back from there.

  Operators that make the same requests come to the same on both sides. Reading a pool gives the
  same value where the pools agree, and a call comes to the same because the host that serves it
  follows, one level of calls below. The induction is on the levels that are left.
-/

import Sluice.Proofs.Host.Steady

namespace Sluice

variable {σ τ : Type}

-- ============================================================================
-- Invocations that meet
-- ============================================================================

/-- Outcomes of two invocations that meet: with the same result, calls and warnings, and unless
they were halted in related states. Nothing is said of the second where the first was lost on
its way. The relation may depend on the number of operators called so far. -/
inductive Trail.Meets (S : Nat → σ → τ → Prop) (lost : σ → Prop) (n : Nat) :
    Attempt Value × Trail σ → Attempt Value × Trail τ → Prop
  | same (result : Attempt Value) (nested : Nat) (warnings : List String) {s : σ} {s' : τ}
    (h : (∀ h, result ≠ .error (.halt h)) → S (n + nested) s s') :
    Meets S lost n (result, ⟨s, nested, warnings⟩) (result, ⟨s', nested, warnings⟩)
  | lost {out : Attempt Value × Trail σ} {out' : Attempt Value × Trail τ} (hlost : ∃ s, lost s)
    (h : (∀ h, out.1 ≠ .error (.halt h)) → lost out.2.state) : Meets S lost n out out'

/-- Stores in which some pools have the same values. -/
def PoolStore.AgreeOn (reads : String → Prop) (pools pools' : PoolStore) : Prop :=
  ∀ pool, reads pool → pools'.value? pool = pools.value? pool

section

variable (S : σ → τ → Prop) (lost : σ → Prop) (reads calls : String → Prop)

/-- Actions that make the same requests, one after the other, and come to the same result. They
read pools and call operators that are allowed, and what they do to their hosts keeps the states
of these related, and lost if they were. -/
inductive Action.Like : Action σ → Action τ → Prop
  | finish (result : Attempt Value) : Like (.finish result) (.finish result)
  | warn (message : String) {next : Action σ} {next' : Action τ} (h : Like next next') :
    Like (.warn message next) (.warn message next')
  | readPool {name : String} {next : Option Value → Action σ} {next' : Option Value → Action τ}
    (hname : reads name) (h : ∀ value, Like (next value) (next' value)) :
    Like (.readPool name next) (.readPool name next')
  | call {name : String} (input : Value) (args : Arguments)
    {next : Except OperatorError Value → Action σ} {next' : Except OperatorError Value → Action τ}
    (hname : calls name) (h : ∀ result, Like (next result) (next' result)) :
    Like (.call name input args next) (.call name input args next')
  | perform {effect : σ → Attempt Value × σ} {effect' : τ → Attempt Value × τ}
    (h : ∀ s s', S s s' → (effect' s').1 = (effect s).1 ∧ S (effect s).2 (effect' s').2)
    (hlost : ∀ s, lost s → lost (effect s).2) : Like (.perform effect) (.perform effect')

/-- Operators that do the same work. -/
structure Operator.Like (op : Operator σ) (op' : Operator τ) : Prop where
  arity : op'.arity = op.arity
  tier : op'.tier = op.tier
  body : ∀ input args, (op.body input args).Like S lost reads calls (op'.body input args)

end

namespace Action

variable {reads calls : String → Prop} {S : σ → τ → Prop} {lost : σ → Prop}

/-- What is lost stays so. -/
theorem Like.staysIn {action : Action σ} {action' : Action τ}
    (h : action.Like S lost reads calls action') : action.StaysIn lost := by
  induction h with
  | finish result => trivial
  | warn message _ ih => exact ih
  | readPool _ _ ih => exact ih
  | call input args _ _ ih => exact ih
  | perform _ hlost => exact hlost

/-- Where there is no state nothing leads out of it. -/
theorem staysIn_nowhere (action : Action σ) : action.StaysIn fun _ => False := by
  induction action with
  | finish result => trivial
  | perform effect => exact fun _ hs => hs
  | warn message next ih => exact ih
  | readPool name next ih => exact ih
  | call name input args next ih => exact ih

/-- An action may come to read a pool, for some answers to its requests. -/
def Reads (pool : String) : Action σ → Prop
  | .finish _ | .perform _ => False
  | .warn _ next => next.Reads pool
  | .readPool name next => name = pool ∨ ∃ value, (next value).Reads pool
  | .call _ _ _ next => ∃ result, (next result).Reads pool

/-- An action may come to call an operator, for some answers to its requests. -/
def Calls (name : String) : Action σ → Prop
  | .finish _ | .perform _ => False
  | .warn _ next => next.Calls name
  | .readPool _ next => ∃ value, (next value).Calls name
  | .call callee _ _ next => callee = name ∨ ∃ result, (next result).Calls name

/-- An action does the same work wherever it is done, if the effects that it asks for come to the
same there. -/
theorem AsksOnly.like {action : Action σ} {asks : String → Arguments → Prop}
    {acts : (σ → Attempt Value × σ) → Prop} (h : action.AsksOnly asks acts)
    (hreads : ∀ pool, action.Reads pool → reads pool)
    (hcalls : ∀ name, action.Calls name → calls name) {S : σ → σ → Prop} {lost : σ → Prop}
    (hacts : ∀ effect s s', acts effect → S s s' →
      (effect s').1 = (effect s).1 ∧ S (effect s).2 (effect s').2)
    (hlost : ∀ effect s, acts effect → lost s → lost (effect s).2) :
    action.Like S lost reads calls action := by
  induction action with
  | finish result => exact .finish result
  | perform effect => exact .perform (fun s s' => hacts effect s s' h) fun s => hlost effect s h
  | warn message next ih => exact .warn message (ih h hreads hcalls)
  | readPool name next ih =>
    refine .readPool (hreads name (.inl rfl)) fun value => ih value (h value) ?_ ?_
    · exact fun pool hpool => hreads pool (.inr ⟨value, hpool⟩)
    · exact fun callee hcallee => hcalls callee ⟨value, hcallee⟩
  | call name input args next ih =>
    refine .call input args (hcalls name (.inl rfl)) fun result => ih result (h.2 result) ?_ ?_
    · exact fun pool hpool => hreads pool ⟨result, hpool⟩
    · exact fun callee hcallee => hcalls callee (.inr ⟨result, hcallee⟩)

/-- Actions that make the same requests meet, if their calls do and the pools they read agree. -/
theorem Like.run_meets {pools pools' : PoolStore} {caller : Caller σ} {caller' : Caller τ}
    {n : Nat} (hpools : pools.AgreeOn reads pools')
    (hcaller : ∀ name input args s s', calls name → S s s' →
      Trail.Meets (fun _ => S) lost n (caller name input args s) (caller' name input args s'))
    (hstays : ∀ name input args s, lost s → lost (caller name input args s).2.state)
    {action : Action σ} {action' : Action τ} (h : action.Like S lost reads calls action')
    (nested : Nat) (warnings : List String) {s : σ} {s' : τ} (hs : S s s') :
    Trail.Meets (fun _ => S) lost n (action.run (some pools) caller ⟨s, nested, warnings⟩)
      (action'.run (some pools') caller' ⟨s', nested, warnings⟩) := by
  induction h generalizing nested warnings s s' with
  | finish result => exact .same result nested warnings fun _ => hs
  | perform h _ =>
    obtain ⟨hresult, hstate⟩ := h s s' hs
    simp only [Action.run]
    rw [hresult]
    exact .same _ nested warnings fun _ => hstate
  | warn message _ ih => exact ih nested (warnings ++ [message]) hs
  | readPool hname _ ih =>
    simp only [Action.run, Option.bind_some]
    rw [hpools _ hname]
    exact ih _ nested warnings hs
  | @call name input args next next' hname hnext ih =>
    have hcalled := hcaller name input args s s' hname hs
    unfold Action.run
    simp only
    generalize caller name input args s = called at hcalled ⊢
    generalize caller' name input args s' = called' at hcalled ⊢
    cases hcalled with
    | same result inner given hstate =>
      cases result with
      | ok v => exact ih (.ok v) _ _ (hstate fun h hh => by cases hh)
      | error failed =>
        cases failed with
        | error e => exact ih (.error e) _ _ (hstate fun h hh => by cases hh)
        | halt h => exact .same _ _ _ fun hreturns => absurd rfl (hreturns h)
    | lost hlost hstate =>
      -- The action goes on in a state that is lost, and stays there.
      refine .lost hlost fun hreturns => ?_
      obtain ⟨result, state, inner, given⟩ := called
      have hkept : ∀ answer, lost state → lost ((next answer).run (some pools) caller
          ⟨state, nested + inner, warnings ++ given⟩).2.state :=
        fun answer hstate => run_staysIn hstays _ (hnext answer).staysIn _ hstate
      cases result with
      | ok v => exact hkept (.ok v) (hstate fun h hh => by cases hh)
      | error failed =>
        cases failed with
        | error e => exact hkept (.error e) (hstate fun h hh => by cases hh)
        | halt h => exact absurd rfl (hreturns h)

end Action

/-- Operators that do the same work meet, if their calls do and the pools they read agree. -/
theorem Operator.Like.invoke_meets {reads calls : String → Prop} {S : σ → τ → Prop}
    {lost : σ → Prop} {pools pools' : PoolStore} {caller : Caller σ} {caller' : Caller τ}
    {n : Nat} (hpools : pools.AgreeOn reads pools')
    (hcaller : ∀ name input args s s', calls name → S s s' →
      Trail.Meets (fun _ => S) lost n (caller name input args s) (caller' name input args s'))
    (hstays : ∀ name input args s, lost s → lost (caller name input args s).2.state)
    {op : Operator σ} {op' : Operator τ} (h : op.Like S lost reads calls op') (input : Value)
    (args : Arguments) {s : σ} {s' : τ} (hs : S s s') :
    Trail.Meets (fun _ => S) lost n (op.invoke (some pools) caller input args s)
      (op'.invoke (some pools') caller' input args s') := by
  unfold Operator.invoke
  rw [h.arity]
  split
  · exact (h.body input args).run_meets hpools hcaller hstays 0 [] hs
  · exact .same _ 0 [] fun _ => hs

-- ============================================================================
-- Hosts that follow
-- ============================================================================

namespace Host

/-- Resolutions that both find an operator, or both miss it in the same way. -/
inductive Finds (Q : Operator σ → Operator τ → Prop) (R : σ → τ → Prop) :
    Except ResolveError (Operator σ) × σ → Except ResolveError (Operator τ) × τ → Prop
  | found {op : Operator σ} {op' : Operator τ} {s : σ} {s' : τ} (hop : Q op op') (hs : R s s') :
    Finds Q R (.ok op, s) (.ok op', s')
  | missing (e : ResolveError) {s : σ} {s' : τ} (hs : R s s') :
    Finds Q R (.error e, s) (.error e, s')

/-- A host is followed by another: for some names it finds operators that are akin, and in all
else the answers are the same as long as nothing is lost. -/
structure Follows (host : Host σ) (names : String → Prop) (Q : Operator σ → Operator τ → Prop)
    (S : Nat → σ → τ → Prop) (lost : σ → Prop) (host' : Host τ) : Prop where
  resolve : ∀ {n : Nat} {s : σ} {s' : τ} {name : String} (profile : CallProfile), names name →
    S n s s' → Finds Q (S n) (host.resolve name profile s) (host'.resolve name profile s')
  record : ∀ {n : Nat} {s : σ} {s' : τ} (name : String) (tier : Tier) (success : Bool),
    S n s s' → S n (host.record name tier success s) (host'.record name tier success s') ∨
      lost (host.record name tier success s)
  preload : ∀ {n : Nat} {s : σ} {s' : τ} (library : String), S n s s' →
    (host'.preload library s').1 = (host.preload library s).1 ∧
      S n (host.preload library s).2 (host'.preload library s').2
  isCancelled : ∀ {n : Nat} {s : σ} {s' : τ}, S n s s' →
    host'.isCancelled s' = host.isCancelled s
  steady : host.Steady lost

variable {host : Host σ} {host' : Host τ} {names : String → Prop}
  {Q Q' : Operator σ → Operator τ → Prop} {lost : σ → Prop}

/-- Fewer names may be asked for, and less may be known of the operators. -/
theorem Follows.mono {S : Nat → σ → τ → Prop} (h : host.Follows names Q S lost host')
    {names' : String → Prop} (hnames : ∀ name, names' name → names name)
    (hop : ∀ op op', Q op op' → Q' op op') : host.Follows names' Q' S lost host' where
  resolve {n s s' name} profile hname hs := by
    have hfinds := h.resolve profile (hnames name hname) hs
    generalize host.resolve name profile s = found at hfinds ⊢
    generalize host'.resolve name profile s' = found' at hfinds ⊢
    cases hfinds with
    | found hQ hs => exact .found (hop _ _ hQ) hs
    | missing e hs => exact .missing e hs
  record := h.record
  preload := h.preload
  isCancelled := h.isCancelled
  steady := h.steady

theorem steady_nowhere (host : Host σ) : host.Steady fun _ => False :=
  ⟨fun _ _ _ hs => hs, fun _ _ _ _ hs => hs.elim, fun _ _ _ _ hs => hs, fun _ _ hs => hs⟩

variable {S : σ → τ → Prop}

/-- Calls by name meet, however deep the calls below them go, where the operators that are found
do the same work and call no others. -/
theorem Follows.call_meets {reads calls : String → Prop}
    (h : host.Follows calls (Operator.Like S lost reads calls) (fun _ => S) lost host')
    {pools pools' : PoolStore} (hpools : pools.AgreeOn reads pools') (allowance depth : Nat)
    {name : String} (hname : calls name) (input : Value) (args : Arguments) {n : Nat} {s : σ}
    {s' : τ} (hs : S s s') :
    Trail.Meets (fun _ => S) lost n (host.call pools allowance depth name input args s)
      (host'.call pools' allowance depth name input args s') := by
  induction allowance generalizing depth name input args s s' with
  | zero => exact .same _ 0 [] fun _ => hs
  | succ allowance ih =>
    unfold Host.call
    split
    · exact .same _ 0 [] fun _ => hs
    · have hfinds : Finds _ S (host.resolve name (.ofInput input (depth + 1)) s)
          (host'.resolve name (.ofInput input (depth + 1)) s') :=
        h.resolve (n := n) (.ofInput input (depth + 1)) hname hs
      generalize host.resolve name (.ofInput input (depth + 1)) s = found at hfinds ⊢
      generalize host'.resolve name (.ofInput input (depth + 1)) s' = found' at hfinds ⊢
      cases hfinds with
      | missing e hs => exact .same _ 0 [] fun _ => hs
      | @found op op' t t' hop ht =>
        have hmeets : Trail.Meets (fun _ => S) lost n
            (op.invoke (some pools) (host.call pools allowance (depth + 1)) input args t)
            (op'.invoke (some pools') (host'.call pools' allowance (depth + 1)) input args t') :=
          hop.invoke_meets hpools
            (fun name input args s s' hname hs => ih (depth + 1) hname input args hs)
            (h.steady.call_state pools allowance (depth + 1)) input args ht
        simp only
        rw [hop.tier]
        generalize op.invoke _ _ _ _ _ = out at hmeets ⊢
        generalize op'.invoke _ _ _ _ _ = out' at hmeets ⊢
        cases hmeets with
        | @same result nested warnings u u' hu =>
          by_cases hreturns : ∀ h, result ≠ .error (.halt h)
          · rcases h.record (n := n) name op.tier result.isOk (hu hreturns) with hrec | hlost
            · exact .same _ _ _ fun _ => hrec
            · exact .lost ⟨_, hlost⟩ fun _ => hlost
          · exact .same _ _ _ fun h => absurd h hreturns
        | lost hlost hu =>
          exact .lost hlost fun hreturns => h.steady.record _ _ _ _ (hu hreturns)

end Host

-- ============================================================================
-- Operators that follow
-- ============================================================================

/-- An operator is followed by another, wherever the pools agree: their invocations meet. An
invocation counts as one call beside those below it. -/
structure Operator.Follows (agree : PoolStore → PoolStore → Prop) (S : Nat → σ → τ → Prop)
    (lost : σ → Prop) (host : Host σ) (host' : Host τ) (op : Operator σ) (op' : Operator τ) :
    Prop where
  tier : op'.tier = op.tier
  staysIn : op.StaysIn lost
  invoke : ∀ {n : Nat} {s : σ} {s' : τ} {pools pools' : PoolStore} (depth : Nat) (input : Value)
    (args : Arguments), agree pools pools' → S n s s' →
    Trail.Meets S lost (n + 1) (op.invoke (some pools) (host.caller pools depth) input args s)
      (op'.invoke (some pools') (host'.caller pools' depth) input args s')

namespace Operator.Like

variable {S : σ → τ → Prop} {lost : σ → Prop} {host : Host σ} {host' : Host τ}
  {op : Operator σ} {op' : Operator τ}

/-- Operators that do the same work follow each other wherever the pools agree that they and
those they call read. -/
theorem follows {reads calls : String → Prop} {agree : PoolStore → PoolStore → Prop}
    (hop : op.Like S lost reads calls op')
    (hhost : host.Follows calls (Operator.Like S lost reads calls) (fun _ => S) lost host')
    (hagree : ∀ {pools pools'}, agree pools pools' → pools.AgreeOn reads pools') :
    op.Follows agree (fun _ => S) lost host host' op' where
  tier := hop.tier
  staysIn input args := (hop.body input args).staysIn
  invoke depth input args hpools hs :=
    hop.invoke_meets (hagree hpools)
      (fun _ input args _ _ hname hs =>
        hhost.call_meets (hagree hpools) (Host.nestingAllowance - depth) depth hname input args hs)
      (hhost.steady.call_state _ (Host.nestingAllowance - depth) depth) input args hs

end Operator.Like

end Sluice
