/-
  Sluice.Proofs.Host.Calls

  Calls below calls. A call below `map` or `filter` has one argument less, and one below `reduce`
  has one argument. A call therefore has few levels below it, unless `reduce` is to reduce by
  `reduce`: what it calls then is again `reduce`, by whatever the elements name, and nothing gets
  less.

  That calls come to an end is said of `callAbove`, where what happens to a call for which no
  allowance is left is a parameter: if it makes no difference, there is no such call.

  Main statements: calls come to an end unless they come down to `reduce` by `reduce`; and there
  is a value, held by a pool, that reduces by `reduce` without end.
-/

import Sluice.Proofs.Host.Requests

namespace Sluice

variable {σ τ : Type}

-- ============================================================================
-- Calls with an end
-- ============================================================================

namespace Host

/-- Call an operator by name from within an operator at some depth, with `last` for the calls
below the allowance. -/
def callAbove (host : Host σ) (pools : PoolStore) (last : Caller σ) :
    (allowance depth : Nat) → Caller σ
  | 0, _ => last
  | allowance + 1, depth => fun name input args s =>
    if Number.maxWord ≤ depth then (.error (.halt .overflow), { state := s })
    else
      match host.resolve name (.ofInput input (depth + 1)) s with
      | (.error _, s) => (Attempt.refuse (.unknownOperator name), { state := s })
      | (.ok op, s) =>
        let (result, trail) :=
          op.invoke (some pools) (host.callAbove pools last allowance (depth + 1)) input args s
        (result,
          { trail with
            state := host.record name op.tier result.isOk trail.state
            nested := trail.nested + 1 })

/-- A call below the allowance is endless. -/
theorem call_eq_callAbove (host : Host σ) (pools : PoolStore) (allowance depth : Nat) :
    host.call pools allowance depth =
      host.callAbove pools (fun _ _ _ s => (.error (.halt .endlessCalls), { state := s }))
        allowance depth := by
  induction allowance generalizing depth with
  | zero => rfl
  | succ allowance ih =>
    funext name input args s
    unfold call callAbove
    rewrite [ih]
    rfl

end Host

/-- Two ways to call that agree on the calls of an action agree on the action. -/
theorem Action.run_congr {calls : String → Arguments → Prop}
    {acts : (σ → Attempt Value × σ) → Prop} {pools : Option PoolStore} {caller caller' : Caller σ}
    (h : ∀ name input args s, calls name args →
      caller name input args s = caller' name input args s)
    (action : Action σ) (haction : action.AsksOnly calls acts) (trail : Trail σ) :
    action.run pools caller trail = action.run pools caller' trail := by
  induction action generalizing trail with
  | finish result => rfl
  | perform effect => rfl
  | warn message next ih => exact ih haction _
  | readPool name next ih => exact ih _ (haction _) trail
  | call name input args next ih =>
    unfold Action.run
    rw [h name input args trail.state haction.1]
    match caller' name input args trail.state with
    | (.ok v, inner) => exact ih (.ok v) (haction.2 _) _
    | (.error (.error e), inner) => exact ih (.error e) (haction.2 _) _
    | (.error (.halt h), inner) => rfl

-- ============================================================================
-- Levels of calls
-- ============================================================================

namespace Core

/-- Whether a call comes down to `reduce` by `reduce`, through `map` and `filter`. -/
def reducesByItself (name : String) : Arguments → Bool
  | [] => false
  | a :: rest =>
    match operatorName (a :: rest) with
    | .error _ => false
    | .ok next =>
      if rest.isEmpty then name == "reduce" && next == "reduce"
      else (name == "map" || name == "filter") && reducesByItself next rest

/-- A bound on the levels of calls from a call on. -/
def levels (name : String) : Arguments → Nat
  | [] => 1
  | [_] => if name = "reduce" then 3 else 2
  | _ :: rest => rest.length + 3

theorem levels_le (name : String) (args : Arguments) : levels name args ≤ args.length + 2 := by
  unfold levels
  split
  · omega
  · split <;> exact Nat.le_of_ble_eq_true rfl
  · exact Nat.le_refl _

theorem levels_pos (name : String) (args : Arguments) : 0 < levels name args := by
  unfold levels
  split
  · decide
  · split <;> decide
  · omega

/-- With one argument only `reduce` reduces by itself. -/
theorem reducesByItself_singleton {name : String} (h : name ≠ "reduce") (a : Value) :
    reducesByItself name [a] = false := by
  unfold reducesByItself
  split
  · rfl
  · next next _ =>
    show (name == "reduce" && next == "reduce") = false
    rw [beq_eq_false_iff_ne.2 h, Bool.false_and]

/-- A call that does not come down to `reduce` by `reduce` makes only such calls, with fewer
levels from each of them on. -/
theorem Calls.descends {name next : String} {args nextArgs : Arguments}
    (h : Calls name args next nextArgs) (hself : reducesByItself name args = false) :
    reducesByItself next nextArgs = false ∧ levels next nextArgs < levels name args := by
  obtain ⟨hnext, hwho⟩ := h
  match args with
  | [] => cases hnext
  | [a] =>
    rcases hwho with ⟨hname, rfl⟩ | ⟨rfl, -, hlength⟩
    · have hother : name ≠ "reduce" := by
        rcases hname with rfl | rfl <;> decide
      refine ⟨rfl, ?_⟩
      show 1 < if name = "reduce" then 3 else 2
      rw [if_neg hother]
      decide
    · unfold reducesByItself at hself
      rw [hnext] at hself
      simp only [List.isEmpty_nil, if_true, beq_self_eq_true, Bool.true_and] at hself
      have hother : next ≠ "reduce" := beq_eq_false_iff_ne.1 hself
      obtain ⟨item, rfl⟩ := List.length_eq_one_iff.1 hlength
      refine ⟨reducesByItself_singleton hother item, ?_⟩
      show (if next = "reduce" then 3 else 2) < 3
      rw [if_neg hother]
      decide
  | a :: b :: rest =>
    rcases hwho with ⟨hname, rfl⟩ | ⟨-, hlength, -⟩
    · unfold reducesByItself at hself
      rw [hnext] at hself
      have hcalls : (name == "map" || name == "filter") = true := by
        rcases hname with rfl | rfl <;> decide
      simp only [List.isEmpty_cons, Bool.false_eq_true, if_false, hcalls, Bool.true_and] at hself
      refine ⟨hself, ?_⟩
      have hle := levels_le next (b :: rest)
      show levels next (b :: rest) < (b :: rest).length + 3
      omega
    · cases hlength

end Core

namespace Host

/-- Operators that a host finds call others only as the operators of their names do. -/
def CallsAsNamed (host : Host σ) : Prop :=
  ∀ name profile s op, (host.resolve name profile s).1 = .ok op → op.CallsAs (fun _ => True) name

variable {host : Host σ}

/-- Invoking an operator depends only on the calls of its name. -/
theorem invoke_congr {acts : (σ → Attempt Value × σ) → Prop} {name : String} {op : Operator σ}
    (hop : op.CallsAs acts name) {args : Arguments} {pools : Option PoolStore}
    {caller caller' : Caller σ}
    (h : ∀ next input nextArgs s, Core.Calls name args next nextArgs →
      caller next input nextArgs s = caller' next input nextArgs s) (input : Value) (s : σ) :
    op.invoke pools caller input args s = op.invoke pools caller' input args s := by
  unfold Operator.invoke
  split
  · next hargs =>
    exact Action.run_congr (fun next input nextArgs s hcalls =>
      h next input nextArgs s (hcalls hargs)) _ (hop input args) _
  · rfl

/-- A call that does not come down to `reduce` by `reduce` comes to the same with any allowance
for its levels, whatever is done below the allowance. -/
theorem callAbove_congr (hhost : host.CallsAsNamed) (pools : PoolStore) (last last' : Caller σ)
    {allowance allowance' : Nat} (depth : Nat) {name : String} {args : Arguments}
    (hself : Core.reducesByItself name args = false) (hlevels : Core.levels name args ≤ allowance)
    (hlevels' : Core.levels name args ≤ allowance') (input : Value) (s : σ) :
    host.callAbove pools last allowance depth name input args s =
      host.callAbove pools last' allowance' depth name input args s := by
  induction allowance generalizing allowance' depth name args input s with
  | zero => exact absurd hlevels (Nat.not_le_of_lt (Core.levels_pos name args))
  | succ allowance ih =>
    have hpos := Core.levels_pos name args
    obtain ⟨other, rfl⟩ : ∃ other, allowance' = other + 1 := ⟨allowance' - 1, by omega⟩
    unfold callAbove
    split
    · rfl
    · match hresolve : host.resolve name (.ofInput input (depth + 1)) s with
      | (.error e, s') => rfl
      | (.ok op, s') =>
        have hop : op.CallsAs (fun _ => True) name :=
          hhost name (.ofInput input (depth + 1)) s op (by rw [hresolve])
        have hinvoke : op.invoke (some pools)
            (host.callAbove pools last allowance (depth + 1)) input args s' =
          op.invoke (some pools) (host.callAbove pools last' other (depth + 1)) input args s' := by
          refine invoke_congr hop (fun next input nextArgs s hcalls => ?_) input s'
          obtain ⟨hnext, hless⟩ := hcalls.descends hself
          exact ih (depth + 1) hnext (by omega) (by omega) input s
        simp only
        rw [hinvoke]

end Host

theorem Session.host_callsAsNamed (tiers : Tiers τ) : (Session.host [] tiers).CallsAsNamed := by
  intro name profile s op hop input args
  exact (resolve_callsAs hop input args).mono (fun _ _ => id) fun _ _ => trivial

/-- Invoking an operator that a session finds comes to an end, unless the call comes down to
`reduce` by `reduce`: there are at most as many levels of calls below it as it has arguments, and
one more. With an allowance for them it makes no difference what is done below the allowance, nor
how large it is. -/
theorem Session.nested_calls_end (tiers : Tiers τ) (s t : Session τ) (name : String)
    (profile : CallProfile) (op : Operator (Session τ)) (pools : PoolStore) (depth : Nat)
    (input : Value) (args : Arguments) (allowance : Nat) (last : Caller (Session τ))
    (hop : ((Session.host [] tiers).resolve name profile s).1 = .ok op)
    (hself : Core.reducesByItself name args = false) (hallowance : args.length + 1 ≤ allowance) :
    op.invoke (some pools) ((Session.host [] tiers).callAbove pools last allowance depth) input args
        t =
      op.invoke (some pools) ((Session.host [] tiers).call pools (args.length + 1) depth) input args
        t := by
  refine Host.invoke_congr (Session.host_callsAsNamed tiers name profile s op hop)
    (fun next input nextArgs s hcalls => ?_) input t
  obtain ⟨hnext, hless⟩ := hcalls.descends hself
  have hlevels := Core.levels_le name args
  rw [Host.call_eq_callAbove]
  exact Host.callAbove_congr (Session.host_callsAsNamed tiers) pools _ _ depth hnext (by omega)
    (by omega) input s

theorem Session.map_calls_end :
    let host : Host (Session Unit) := Session.host []
    let s := Session.ofConfig {} ()
    let map : Operator (Session Unit) := ⟨"map", .atLeast 1, .core, "core", Core.mapWith⟩
    ((host.resolve "map" ⟨2, 0⟩ s).1 = .ok map ∧
      Core.reducesByItself "map" [.text "not"] = false) ∧
    (map.invoke (some (.ofCapacity 1))
      (host.callAbove (.ofCapacity 1) (fun _ _ _ s => (.ok .null, { state := s })) 3 0)
      (.array [.bool true, .null]) [.text "not"] s).1 =
        .ok (.array [.bool false, .bool true]) := by
  intro host s map
  refine ⟨⟨rfl, rfl⟩, ?_⟩
  rw [Session.nested_calls_end {} s s "map" ⟨2, 0⟩ map (.ofCapacity 1) 0
    (.array [.bool true, .null]) [.text "not"] 3 (fun _ _ _ s => (.ok .null, { state := s }))
    rfl rfl (by decide)]
  rfl

-- ============================================================================
-- Calls without end
-- ============================================================================

namespace Attempt

/-- What came of a call or an action: the end of the allowance, or else a result, with the state
as it was. -/
def Gives (result : Attempt Value) (s : σ) (r : Attempt Value × Trail σ) : Prop :=
  r.1 = .error (.halt .endlessCalls) ∨ (r.1 = result ∧ r.2.state = s)

theorem Gives.endless {s : σ} {r : Attempt Value × Trail σ}
    (h : Gives (.error (.halt .endlessCalls)) s r) : r.1 = .error (.halt .endlessCalls) :=
  h.elim id And.left

end Attempt

namespace Core

variable {pools : Option PoolStore} {caller : Caller σ} {name : String} {acc item : Value}
  {rest : List Value} {t : Trail σ}

theorem foldItems_endless
    (hcall : (caller name acc [item] t.state).1 = .error (.halt .endlessCalls)) :
    ((foldItems name acc (item :: rest)).run pools caller t).1 =
      .error (.halt .endlessCalls) := by
  unfold foldItems Action.run
  match hcalled : caller name acc [item] t.state with
  | (first, inner) =>
    rw [hcalled] at hcall
    cases hcall
    rfl

/-- A fold gives what it gives from the value of its first call on. -/
theorem foldItems_gives {v : Value} {result : Attempt Value}
    (hcall : Attempt.Gives (.ok v) t.state (caller name acc [item] t.state))
    (hrest : ∀ after : Trail σ, after.state = t.state →
      result.Gives t.state ((foldItems name v rest).run pools caller after)) :
    result.Gives t.state ((foldItems name acc (item :: rest)).run pools caller t) := by
  rcases hcall with hendless | ⟨hfirst, hstate⟩
  · exact .inl (foldItems_endless hendless)
  · unfold foldItems Action.run
    match hcalled : caller name acc [item] t.state with
    | (first, inner) =>
      rw [hcalled] at hfirst hstate
      cases hfirst
      exact hrest _ hstate

/-- The operator `reduce`. -/
def reduceOperator : Operator σ :=
  ⟨"reduce", .exactly 1, .core, "core", reduceWith⟩

/-- The operator `from_pool`. -/
def poolOperator : Operator σ :=
  ⟨"from_pool", .exactly 1, .core, "core", fromPool⟩

/-- A list that, reduced by `from_pool`, is the value of the pool `p`. -/
def poolReader : Value :=
  .array [.text "a", .text "p"]

/-- A value that, if the pool `p` has it, is reduced by `reduce` only after it is reduced by
`reduce`. -/
def selfReducing : Value :=
  .array [poolReader, .text "from_pool", .text "reduce"]

/-- The pool `p` with this value. -/
def selfReducingPools : PoolStore :=
  (PoolStore.ofCapacity 1).put "p" (.ofInitial selfReducing)

end Core

/-- A call gives what the work of the operator gives, if finding the operator and recording its
outcome leave the state as it is. -/
theorem Host.call_gives {host : Host σ} {pools : PoolStore} {allowance depth : Nat}
    {name : String} {op : Operator σ} {input : Value} {args : Arguments}
    {result : Attempt Value} {s : σ}
    (hresolve : ∀ profile, host.resolve name profile s = (.ok op, s))
    (hrecord : ∀ success, host.record name op.tier success s = s)
    (hargs : op.arity.admits args.length = true) (hdepth : depth < Number.maxWord)
    (hbody : result.Gives s ((op.body input args).run (some pools)
      (host.call pools allowance (depth + 1)) { state := s })) :
    result.Gives s (host.call pools (allowance + 1) depth name input args s) := by
  unfold call
  rw [if_neg (Nat.not_le_of_lt hdepth), hresolve]
  unfold Operator.invoke
  simp only [hargs, if_true]
  rcases hbody with hendless | ⟨hresult, hstate⟩
  · exact .inl hendless
  · refine .inr ⟨hresult, ?_⟩
    simp only
    rw [hstate, hrecord]

namespace Session

open Sluice.Core

/-- Outcomes of the core library are not kept. -/
theorem record_core (tiers : Tiers τ) (name : String) (success : Bool) (s : Session τ) :
    (host [] tiers).record name .core success s = s := by
  unfold Session.host Registry.record Breaker.record
  simp

theorem resolve_reduceOperator (profile : CallProfile) :
    (Session.host []).resolve "reduce" profile (ofConfig {} ()) =
      (.ok reduceOperator, ofConfig {} ()) :=
  rfl

theorem resolve_poolOperator (profile : CallProfile) :
    (Session.host []).resolve "from_pool" profile (ofConfig {} ()) =
      (.ok poolOperator, ofConfig {} ()) :=
  rfl

theorem call_poolOperator (allowance depth : Nat) (hdepth : depth + allowance ≤ Number.maxWord) :
    Attempt.Gives (.ok selfReducing) (ofConfig {} ())
      ((Session.host []).call selfReducingPools allowance depth "from_pool" (.text "a")
        [.text "p"] (ofConfig {} ())) := by
  cases allowance with
  | zero => exact .inl rfl
  | succ allowance =>
    exact Host.call_gives resolve_poolOperator (record_core {} _ · _) rfl (by omega)
      (.inr ⟨rfl, rfl⟩)

theorem call_poolReader (allowance depth : Nat) (hdepth : depth + allowance ≤ Number.maxWord) :
    Attempt.Gives (.ok selfReducing) (ofConfig {} ())
      ((Session.host []).call selfReducingPools allowance depth "reduce" poolReader
        [.text "from_pool"] (ofConfig {} ())) := by
  cases allowance with
  | zero => exact .inl rfl
  | succ allowance =>
    refine Host.call_gives resolve_reduceOperator (record_core {} _ · _) rfl (by omega) ?_
    have hread := call_poolOperator allowance (depth + 1) (by omega)
    exact foldItems_gives (t := { state := ofConfig {} () }) hread
      fun after hafter => .inr ⟨rfl, hafter⟩

/-- Reducing the value by `reduce` comes, one level further down, to the same again. -/
theorem run_selfReducing (allowance depth : Nat) (hdepth : depth + allowance ≤ Number.maxWord) :
    Attempt.Gives (.error (.halt .endlessCalls)) (ofConfig {} ())
      ((reduceWith selfReducing [.text "reduce"]).run (some selfReducingPools)
        ((Session.host []).call selfReducingPools allowance depth)
        { state := ofConfig {} () }) := by
  induction allowance generalizing depth with
  | zero => exact .inl rfl
  | succ allowance ih =>
    have hread := call_poolReader (allowance + 1) depth hdepth
    refine foldItems_gives (t := { state := ofConfig {} () }) hread fun after hafter => ?_
    -- The value is back, and what is left is to reduce it by `reduce`.
    have hagain : Attempt.Gives (.error (.halt .endlessCalls)) (ofConfig {} ())
        ((Session.host []).call selfReducingPools (allowance + 1) depth "reduce" selfReducing
          [.text "reduce"] (ofConfig {} ())) :=
      Host.call_gives resolve_reduceOperator (record_core {} _ · _) rfl (by omega)
        (ih (depth + 1) (by omega))
    refine .inl (foldItems_endless ?_)
    rw [hafter]
    exact hagain.endless

/-- No allowance that a depth can count is enough for `reduce` by `reduce`. -/
theorem reduce_by_reduce_never_ends :
    ((Session.host []).resolve "reduce" ⟨3, 0⟩ (ofConfig {} ())).1 = .ok reduceOperator ∧
      ∀ allowance, allowance ≤ Number.maxWord →
        (reduceOperator.invoke (some selfReducingPools)
          ((Session.host []).call selfReducingPools allowance 0) selfReducing [.text "reduce"]
          (ofConfig {} ())).1 = .error (.halt .endlessCalls) := by
  refine ⟨rfl, fun allowance hallowance => ?_⟩
  have hrun := run_selfReducing allowance 0 (by omega)
  exact hrun.endless

end Session

end Sluice
