/-
  Sluice.Proofs.Run.PerOperator

  What a report counts under the name of an operator. A run counts an attempt as it ends, with all
  calls below it, and under the name of the operator that was attempted; what the operators below
  are called makes no difference.

  Main statement: under each name stand all outcomes that were heard in the attempts of that
  operator. This is how often the operator was invoked, more by the calls of others below its
  attempts, and less by its own calls below the attempts of others.
-/

import Sluice.Proofs.Host.Grouped
import Sluice.Proofs.Record
import Sluice.Proofs.Run.Accounts

namespace Sluice

variable {σ : Type}

-- ============================================================================
-- Attempts of an operator
-- ============================================================================

/-- Whether an attempt is one of an operator, whose own outcome was heard last. -/
def isAttemptOf (name : String) (heard : List Outcome) : Bool :=
  heard.getLast?.any fun outcome => outcome.name == name

/-- How many outcomes were heard in the attempts of an operator. -/
def heardUnder (name : String) (attempts : List (List Outcome)) : Nat :=
  (attempts.filter (isAttemptOf name)).flatten.length

/-- Calls of other operators in the attempts of an operator. -/
def callsOfOthers (name : String) (attempts : List (List Outcome)) : Nat :=
  (attempts.filter (isAttemptOf name)).flatten.countP fun outcome => outcome.name != name

/-- Calls of an operator in the attempts of others. -/
def callsByOthers (name : String) (attempts : List (List Outcome)) : Nat :=
  (attempts.filter fun heard => !isAttemptOf name heard).flatten.countP fun outcome =>
    outcome.name == name

theorem heardUnder_append (name : String) (attempts more : List (List Outcome)) :
    heardUnder name (attempts ++ more) = heardUnder name attempts + heardUnder name more := by
  unfold heardUnder
  rw [List.filter_append, List.flatten_append, List.length_append]

/-- A name without an implementation leaves nothing under any name. -/
theorem heardUnder_unresolved (name : String) : heardUnder name [[]] = 0 := rfl

/-- An attempt leaves the calls below it, and itself, under its own name. -/
theorem heardUnder_attempt (name : String) (below : List Outcome) (outcome : Outcome) :
    heardUnder name [below ++ [outcome]] =
      if outcome.name = name then 1 + below.length else 0 := by
  have hown : isAttemptOf name (below ++ [outcome]) = (outcome.name == name) := by
    rw [isAttemptOf, List.getLast?_concat]
    rfl
  by_cases hname : outcome.name = name
  · rw [if_pos hname, heardUnder, List.filter_cons_of_pos (by rw [hown, hname, beq_self_eq_true])]
    simp [Nat.add_comm]
  · rw [if_neg hname, heardUnder, List.filter_cons_of_neg (by rw [hown]; simpa using hname)]
    rfl

/-- What is counted in some groups and in the others is counted in all of them. -/
theorem countP_flatten_filter {α : Type} (p : List α → Bool) (q : α → Bool)
    (groups : List (List α)) :
    (groups.filter p).flatten.countP q + (groups.filter fun group => !p group).flatten.countP q =
      groups.flatten.countP q := by
  rw [← List.countP_append, ← List.flatten_append]
  exact (List.filter_append_perm p groups).flatten.countP_eq q

/-- What is heard in an operator's attempts are its invocations, but for calls of others there and
its own calls elsewhere. -/
theorem heardUnder_add_callsByOthers (name : String) (attempts : List (List Outcome)) :
    heardUnder name attempts + callsByOthers name attempts =
      (attempts.flatten.countP fun outcome => outcome.name == name) +
        callsOfOthers name attempts := by
  have hown := countP_flatten_filter (isAttemptOf name) (fun outcome => outcome.name == name)
    attempts
  have hlength := List.length_eq_countP_add_countP (fun outcome : Outcome => outcome.name == name)
    (l := (attempts.filter (isAttemptOf name)).flatten)
  simp only [decide_not, Bool.decide_eq_true] at hlength
  show (attempts.filter (isAttemptOf name)).flatten.length +
      (attempts.filter fun heard => !isAttemptOf name heard).flatten.countP _ =
    _ + (attempts.filter (isAttemptOf name)).flatten.countP fun outcome => !(outcome.name == name)
  omega

-- ============================================================================
-- Runs
-- ============================================================================

/-- Under each name a run has counted what was heard in the attempts of that operator. -/
def Run.CountsAttempts (r : Run (σ × List (List Outcome))) : Prop :=
  ∀ name, (r.metrics.perOperator.get? name).getD 0 = heardUnder name r.state.2

/-- One more attempt is counted, with the calls below it. -/
theorem Run.CountsAttempts.attempt {r : Run (σ × List (List Outcome))} (hr : r.CountsAttempts)
    {name : String} {calls : Nat} {s : σ} {below : List Outcome} {outcome : Outcome}
    (hname : outcome.name = name) (hcalls : below.length = calls) (line : Nat)
    (warnings : List String) :
    Run.CountsAttempts { r.tried line name (1 + calls) warnings with
      state := (s, r.state.2 ++ [below ++ [outcome]]) } := by
  intro other
  show ((r.metrics.perOperator.set name
    ((r.metrics.perOperator.get? name).getD 0 + (1 + calls))).get? other).getD 0 =
      heardUnder other (r.state.2 ++ [below ++ [outcome]])
  rw [heardUnder_append, heardUnder_attempt, hname, hcalls, ← hr other]
  by_cases hother : name = other
  · rw [if_pos hother, hother, Record.get?_set_self, Option.getD_some]
  · rw [if_neg hother, Record.get?_set_of_ne (Ne.symm hother), Nat.add_zero]

/-- The counts agree with what is heard through everything that a run does. -/
theorem lasting_countsAttempts (ctx : RunContext σ) :
    Lasting (ctx.on ctx.host.grouped ctx.channel) (fun op => ∃ op₀ : Operator σ, op = op₀.grouped)
      (fun _ => True) (fun _ => True) Run.CountsAttempts where
  refusal _ := trivial
  warn _ hr := hr
  retry hr := hr
  resolve {r} name profile hr := by
    intro other
    match hresolve : ctx.host.resolve name profile r.state.1 with
    | (.ok op, t) =>
      have hstate := Host.resolve_grouped_ok hresolve r.state.2
      show _ = heardUnder other (ctx.host.grouped.resolve name profile r.state).2.2
      rw [hstate]
      exact hr other
    | (.error e, t) =>
      have hstate := Host.resolve_grouped_error hresolve r.state.2
      show _ = heardUnder other (ctx.host.grouped.resolve name profile r.state).2.2
      rw [hstate, heardUnder_append, heardUnder_unresolved]
      exact hr other
  found {r} name profile op hr h := by
    match hresolve : ctx.host.resolve name profile r.state.1 with
    | (.ok op₀, t) =>
      have hfound := congrArg Prod.fst (Host.resolve_grouped_ok hresolve r.state.2)
      exact ⟨op₀, Except.ok.inj (h.symm.trans hfound)⟩
    | (.error e, t) =>
      have hfound := congrArg Prod.fst (Host.resolve_grouped_error hresolve r.state.2)
      cases h.symm.trans hfound
  attempt {r r' node op name depth input args result} hop hr h := by
    obtain ⟨op, rfl⟩ := hop
    rw [Step.outcome_attempt_eq] at h
    cases h
    refine ⟨fun hreturns => ?_, fun _ _ => trivial⟩
    obtain ⟨hresult, hnested, -, hstate⟩ :=
      ctx.host.invoke_grouped r.pools depth op input args r.state.1 [] r.state.2
    obtain ⟨s, below, -, hgroups, hlength⟩ := hstate (hresult ▸ hreturns)
    let invoked := op.grouped.invoke (some r.pools) (ctx.host.grouped.caller r.pools depth) input
      args r.state
    let outcome : Outcome := ⟨name, op.tier, invoked.1.isOk⟩
    have hrecord : ctx.host.grouped.record name op.tier invoked.1.isOk invoked.2.state =
        (ctx.host.record name op.tier invoked.1.isOk s, r.state.2 ++ [below ++ [outcome]]) := by
      show (ctx.host.record name op.tier invoked.1.isOk invoked.2.state.1,
        addToLast outcome invoked.2.state.2) = _
      have hstate' : invoked.2.state = (s, r.state.2 ++ [below]) := hgroups
      rw [hstate', addToLast_append]
    have hattempt := hr.attempt (s := ctx.host.record name op.tier invoked.1.isOk s)
      (show outcome.name = name from rfl) (hlength.trans hnested) node.line invoked.2.warnings
    rw [← hrecord] at hattempt
    exact hattempt
  print _ _ hr := hr
  render _ _ hr := hr
  step hr := hr
  cancelled _ _ := trivial
  exhausted := trivial
  start _ _ hr := hr
  complete _ _ hr := hr
  fail _ _ hr _ := hr
  make _ hr _ := hr
  full _ _ := trivial
  write _ hr _ := hr
  notify hr := hr
  activate _ _ hr := hr
  preload _ hr := hr

namespace Engine

/-- At the end of a run there stands under each name what was heard in the attempts of that
operator. -/
theorem perOperator_eq_heardUnder {engine : Engine σ} {program : Program} {s : σ}
    {finished : Finished σ} (hrun : engine.run program s = .ok finished) (name : String) :
    (finished.report.metrics.perOperator.get? name).getD 0 =
      heardUnder name (engine.attempts program s) := by
  obtain ⟨initial, r, -, hout, hfinished⟩ := run_eq_ok (run_grouped hrun).1
  have hl : Lasting (engine.grouped.context program)
      (fun op => ∃ op₀ : Operator σ, op = op₀.grouped) (fun _ => True) (fun _ => True)
      Run.CountsAttempts := lasting_countsAttempts (engine.context program)
  have hruns : ∀ root seed, (Exec.execute (engine.grouped.context program) root seed).Keeps
      (fun _ => True) Run.CountsAttempts :=
    fun root seed => Exec.keeps_runNested hl trivial _ root seed
  have hstart : (startState (engine.grouped.context program) initial (s, [])).CountsAttempts :=
    fun _ => rfl
  have hr : r.CountsAttempts :=
    (Exec.keeps_runAll hl.toNoting initial (fun root _ => hruns root none)
      (fun root _ => hruns root none) fun s _ value => hruns s.root (some value)).ends hstart hout
  have hmetrics : finished.report.metrics = r.metrics :=
    congrArg (fun f => (Finished.report f).metrics) hfinished
  have hattempts : engine.attempts program s = r.state.2 :=
    congrArg (fun f => (Finished.state f).2) hfinished
  rw [hmetrics, hattempts]
  exact hr name

/-- Counts by the name of an operator, and what they are made of. Whatever is heard in a run is
heard in its attempts, and under each name stands what was heard in the attempts of that operator.
These are its invocations but for its calls below attempts of others, and the calls of others below
its own attempts. So the count is that of the invocations if and only if such calls are equally
many. -/
theorem perOperator_eq_invocations_iff {engine : Engine σ} {program : Program} {s : σ}
    {finished : Finished σ} (hrun : engine.run program s = .ok finished) (name : String) :
    (engine.attempts program s).flatten = engine.outcomes program s ∧
    (finished.report.metrics.perOperator.get? name).getD 0 =
      heardUnder name (engine.attempts program s) ∧
    (finished.report.metrics.perOperator.get? name).getD 0 +
        callsByOthers name (engine.attempts program s) =
      ((engine.outcomes program s).countP fun outcome => outcome.name == name) +
        callsOfOthers name (engine.attempts program s) ∧
    ((finished.report.metrics.perOperator.get? name).getD 0 =
        ((engine.outcomes program s).countP fun outcome => outcome.name == name) ↔
      callsOfOthers name (engine.attempts program s) =
        callsByOthers name (engine.attempts program s)) := by
  have hcount := perOperator_eq_heardUnder hrun name
  have hflatten := (run_grouped hrun).2
  have hbalance := heardUnder_add_callsByOthers name (engine.attempts program s)
  rw [hflatten] at hbalance
  rw [hcount]
  refine ⟨hflatten, rfl, hbalance, ?_⟩
  omega

/-- An operator that calls another one, which is called by a node as well, and fails twice there. -/
def sharedSource : String :=
  "~ [1, 2] | map(\"negate\")\n~ \"a\" | negate"

/-- Settings with one retry. -/
def sharedConfig : Config :=
  { operatorRetries := 1 }

set_option maxRecDepth 4000 in
/-- Under `map` stand its attempt and the two calls below it; under `negate` stand its two attempts
at the node, but not these calls. -/
theorem perOperator_shared :
    ∃ finished, (Program.parse sharedSource).runWith sharedConfig = .ok finished ∧
      finished.report.metrics.perOperator = [("map", 3), ("negate", 2)] ∧
      let attempts := (Session.engine sharedConfig []).attempts (.parse sharedSource)
        (.ofConfig sharedConfig ())
      callsOfOthers "map" attempts = 2 ∧ callsByOthers "negate" attempts = 2 ∧
      (finished.report.metrics.perOperator.get? "negate").getD 0 = heardUnder "negate" attempts ∧
      (finished.report.metrics.perOperator.get? "negate").getD 0 +
          callsByOthers "negate" attempts =
        (((Session.engine sharedConfig []).outcomes (.parse sharedSource)
          (.ofConfig sharedConfig ())).countP fun outcome => outcome.name == "negate") +
          callsOfOthers "negate" attempts := by
  have hcounts : (match (Program.parse sharedSource).runWith sharedConfig with
      | .ok finished =>
        decide (finished.report.metrics.perOperator = [("map", 3), ("negate", 2)])
      | .error _ => false) = true := by decide +kernel
  have hcalls : callsOfOthers "map" ((Session.engine sharedConfig []).attempts
        (.parse sharedSource) (.ofConfig sharedConfig ())) = 2 ∧
      callsByOthers "negate" ((Session.engine sharedConfig []).attempts
        (.parse sharedSource) (.ofConfig sharedConfig ())) = 2 := by decide +kernel
  match hrun : (Program.parse sharedSource).runWith sharedConfig with
  | .ok finished =>
    rw [hrun] at hcounts
    obtain ⟨-, hunder, hbalance, -⟩ := perOperator_eq_invocations_iff hrun "negate"
    exact ⟨finished, rfl, of_decide_eq_true hcounts, hcalls.1, hcalls.2, hunder, hbalance⟩
  | .error halted =>
    rw [hrun] at hcounts
    cases hcounts

/-- Two elements that are mapped. -/
def mappedSource : String :=
  "~ [1, 2] | map(\"negate\")"

set_option maxRecDepth 4000 in
/-- `negate` is invoked twice and is not counted, and `map` is invoked once and counted thrice. -/
theorem perOperator_under_caller :
    ∃ finished, (Program.parse mappedSource).runWith {} = .ok finished ∧
      finished.report.metrics.perOperator = [("map", 3)] ∧
      (((Session.engine {} []).outcomes (.parse mappedSource) (.ofConfig {} ())).countP
        fun outcome => outcome.name == "negate") = 2 ∧
      (((Session.engine {} []).outcomes (.parse mappedSource) (.ofConfig {} ())).countP
        fun outcome => outcome.name == "map") = 1 := by
  have hcounts : (match (Program.parse mappedSource).runWith {} with
      | .ok finished => decide (finished.report.metrics.perOperator = [("map", 3)])
      | .error _ => false) = true := by decide +kernel
  have hinvoked : (((Session.engine {} []).outcomes (.parse mappedSource)
        (.ofConfig {} ())).countP fun outcome => outcome.name == "negate") = 2 ∧
      (((Session.engine {} []).outcomes (.parse mappedSource) (.ofConfig {} ())).countP
        fun outcome => outcome.name == "map") = 1 := by decide +kernel
  match hrun : (Program.parse mappedSource).runWith {} with
  | .ok finished =>
    rw [hrun] at hcounts
    exact ⟨finished, rfl, of_decide_eq_true hcounts, hinvoked⟩
  | .error halted =>
    rw [hrun] at hcounts
    cases hcounts

end Engine

end Sluice
