/-
  Sluice.Proofs.Run.Retries

  What becomes of an operator that fails and is tried again. Between the attempts only the host
  changes: an operator may change its state, and the host hears of every outcome. So the attempts
  are a series that is determined by the host's state before the first of them, and retries are
  how far the series is followed: to the first success, or to the last attempt that is allowed.

  The operator was found before the first attempt. Whatever the host makes of the outcomes, it
  hears of all of them under the tier of that operator.
-/

import Mathlib.Algebra.BigOperators.Group.Finset.Basic
import Mathlib.Order.Bounds.Basic
import Sluice.Proofs.Host.Logged
import Sluice.Proofs.Record
import Sluice.Session

namespace Sluice

variable {σ : Type}

/-- Invocations under one name that follow each other count as if they were made at once. -/
theorem Metrics.countOperator_countOperator (m : Metrics) (name : String) (calls calls' : Nat) :
    (m.countOperator name calls).countOperator name calls' =
      m.countOperator name (calls + calls') := by
  unfold countOperator
  simp only [Record.get?_set_self, Record.set_set, Option.getD_some, Nat.add_assoc]

theorem Run.tried_tried (r : Run σ) (line : Nat) (name : String) (calls calls' : Nat)
    (warnings warnings' : List String) :
    (r.tried line name calls warnings).tried line name calls' warnings' =
      r.tried line name (calls + calls') (warnings ++ warnings') := by
  unfold tried
  rw [Metrics.countOperator_countOperator, List.map_append, ← List.append_toArray,
    ← Array.append_assoc]

/-- Take note of some retries. -/
def Run.retried (times : Nat) (r : Run σ) : Run σ :=
  r.count fun m => { m with retries := m.retries + times }

theorem Run.retried_retried (r : Run σ) (times times' : Nat) :
    (r.retried times).retried times' = r.retried (times + times') := by
  simp only [retried, count, Nat.add_assoc]

/-- What an attempt that is not tried again means for its pipeline. -/
def Attempt.ending (node : Node) (name : String) :
    Attempt Value → Except Halt (Except Failure Value)
  | .ok v => .ok (.ok v)
  | .error (.error e) => .ok (.error ⟨.ofRefusal e, .atNode node name⟩)
  | .error (.halt h) => .error h

-- ============================================================================
-- Attempts in series
-- ============================================================================

/-- An operator that is invoked again and again, with the same input and arguments. -/
structure Series (σ : Type) where
  host : Host σ
  pools : PoolStore
  op : Operator σ
  /-- The name under which the operator was found. -/
  name : String
  depth : Nat
  input : Value
  args : Arguments
  /-- The host's state before the first attempt. -/
  start : σ

namespace Series

/-- One attempt. -/
def attempt (series : Series σ) (s : σ) : Attempt Value × Trail σ :=
  series.op.invoke (some series.pools) (series.host.caller series.pools series.depth)
    series.input series.args s

/-- The host's state after an attempt of which it has heard. -/
def reported (series : Series σ) (s : σ) : σ :=
  series.host.record series.name series.op.tier (series.attempt s).1.isOk
    (series.attempt s).2.state

/-- The host's state after some attempts, each of which it has heard of before the next. -/
def state (series : Series σ) : Nat → σ
  | 0 => series.start
  | count + 1 => series.reported (series.state count)

/-- What comes of an attempt, counted from zero. -/
def result (series : Series σ) (i : Nat) : Attempt Value :=
  (series.attempt (series.state i)).1

/-- What an attempt leaves behind. -/
def trail (series : Series σ) (i : Nat) : Trail σ :=
  (series.attempt (series.state i)).2

/-- Invocations in some attempts: each counts with the calls it made. -/
def calls (series : Series σ) (count : Nat) : Nat :=
  ∑ i ∈ Finset.range count, (1 + (series.trail i).nested)

/-- The warnings of some attempts, in order. -/
def warnings (series : Series σ) (count : Nat) : List String :=
  (List.range count).flatMap fun i => (series.trail i).warnings

/-- The number of attempts if some retries are allowed: one more than these, unless an attempt
succeeds before. -/
def IsCount (series : Series σ) (retries count : Nat) : Prop :=
  IsLeast {n | n = retries + 1 ∨ ∃ i, n = i + 1 ∧ (series.result i).isOk = true} count

/-- The state of a run after some attempts at a line, where all but the last were tried again. -/
def after (series : Series σ) (line count : Nat) (r : Run σ) : Run σ :=
  { (r.tried line series.name (series.calls count) (series.warnings count)).retried (count - 1) with
    state := series.state count }

/-- What comes of an operator at a node with some retries, from a state of the run. -/
structure Comes (series : Series σ) (retries : Nat) (node : Node) (r : Run σ)
    (out : Except Halt (Except Failure Value) × Run σ) (count : Nat) : Prop where
  pos : 0 < count
  /-- All attempts but the last were refused. -/
  refused : ∀ i, i + 1 < count → ∃ e, series.result i = .error (.error e)
  /-- Unless the last attempt halted the run, it is the first success or the last one allowed. -/
  least : (∀ h, series.result (count - 1) ≠ .error (.halt h)) → series.IsCount retries count
  /-- After a refusal nothing is tried again only if no retry is left. -/
  spent : ∀ e, series.result (count - 1) = .error (.error e) → count = retries + 1
  returned : out.1 = (series.result (count - 1)).ending node series.name
  /-- The run counts every attempt with its calls, and all but the first as retries. The host has
  heard of every attempt, and nothing else in the run has changed but for warnings. -/
  left : out.2 = series.after node.line count r

/-- The series without its first attempt. -/
def later (series : Series σ) : Series σ :=
  { series with start := series.reported series.start }

theorem state_later (series : Series σ) (i : Nat) :
    series.later.state i = series.state (i + 1) := by
  induction i with
  | zero => rfl
  | succ i ih =>
    rw [state, state, ih]
    rfl

theorem attempt_later (series : Series σ) (i : Nat) :
    series.later.attempt (series.later.state i) = series.attempt (series.state (i + 1)) := by
  rw [state_later]
  rfl

theorem result_later (series : Series σ) (i : Nat) :
    series.later.result i = series.result (i + 1) :=
  congrArg Prod.fst (series.attempt_later i)

theorem trail_later (series : Series σ) (i : Nat) :
    series.later.trail i = series.trail (i + 1) :=
  congrArg Prod.snd (series.attempt_later i)

theorem calls_succ (series : Series σ) (count : Nat) :
    series.calls (count + 1) = series.calls 1 + series.later.calls count := by
  unfold calls
  rw [Finset.sum_range_succ', Finset.sum_range_one, Nat.add_comm]
  simp only [trail_later]

theorem warnings_succ (series : Series σ) (count : Nat) :
    series.warnings (count + 1) = series.warnings 1 ++ series.later.warnings count := by
  unfold warnings
  simp only [List.range_succ_eq_map, List.flatMap_cons, List.flatMap_map, trail_later,
    List.range_zero, List.map_nil, List.flatMap_nil, List.append_nil]

/-- A series whose first attempt is refused has one attempt more than the rest of it with one
retry less. -/
theorem IsCount.of_later {series : Series σ} {retries count : Nat}
    (hrefused : (series.result 0).isOk = false) (h : series.later.IsCount retries count) :
    series.IsCount (retries + 1) (count + 1) := by
  obtain ⟨hmem, hleast⟩ := h
  constructor
  · rcases hmem with rfl | ⟨i, rfl, hok⟩
    · exact .inl rfl
    · exact .inr ⟨i + 1, rfl, series.result_later i ▸ hok⟩
  · rintro n (rfl | ⟨i, rfl, hok⟩)
    · exact Nat.succ_le_succ (hleast (.inl rfl))
    · cases i with
      | zero =>
        rw [hrefused] at hok
        cases hok
      | succ i =>
        exact Nat.succ_le_succ (hleast (.inr ⟨i, rfl, (series.result_later i).symm ▸ hok⟩))

/-- What a run does with a refusal that it tries again. -/
theorem after_later (series : Series σ) (line : Nat) {count : Nat} (hcount : 0 < count)
    (r : Run σ) :
    series.later.after line count ((series.after line 1 r).retried 1) =
      series.after line (count + 1) r := by
  calc
    _ = { (((r.tried line series.name (series.calls 1) (series.warnings 1)).tried line series.name
            (series.later.calls count) (series.later.warnings count)).retried 1).retried
          (count - 1) with
          state := series.later.state count } := rfl
    _ = series.after line (count + 1) r := by
      rw [Run.tried_tried, ← series.calls_succ, ← series.warnings_succ, Run.retried_retried,
        state_later, Nat.add_sub_of_le hcount]
      rfl

/-- An attempt that is not tried again is the only one. -/
theorem comes_first {series : Series σ} {retries : Nat} {node : Node} {r : Run σ}
    (hspent : ∀ e, series.result 0 = .error (.error e) → retries = 0) :
    series.Comes retries node r
      ((series.result 0).ending node series.name, series.after node.line 1 r) 1 where
  pos := Nat.one_pos
  refused i hi := absurd hi (by omega)
  least hreturns := by
    constructor
    · match hresult : series.result 0 with
      | .ok v => exact .inr ⟨0, rfl, by rw [hresult]; rfl⟩
      | .error (.error e) => exact .inl (by rw [hspent e hresult])
      | .error (.halt h) => exact absurd hresult (hreturns h)
    · rintro n (rfl | ⟨i, rfl, -⟩) <;> omega
  spent e hresult := by rw [hspent e hresult]
  returned := rfl
  left := rfl

/-- A refusal that is tried again is followed by what comes of the rest. -/
theorem Comes.of_later {series : Series σ} {retries count : Nat} {node : Node} {r : Run σ}
    {out : Except Halt (Except Failure Value) × Run σ} {e : OperatorError}
    (hrefused : series.result 0 = .error (.error e))
    (h : series.later.Comes retries node ((series.after node.line 1 r).retried 1) out count) :
    series.Comes (retries + 1) node r out (count + 1) := by
  have hlast : series.later.result (count - 1) = series.result count := by
    rw [result_later, Nat.sub_add_cancel h.pos]
  refine ⟨Nat.succ_pos count, fun i hi => ?refused, fun hreturns => ?least, fun e' he' => ?spent,
    ?returned, h.left.trans (series.after_later node.line h.pos r)⟩
  case refused =>
    cases i with
    | zero => exact ⟨e, hrefused⟩
    | succ i =>
      rw [← result_later]
      exact h.refused i (Nat.lt_of_succ_lt_succ hi)
  case least =>
    refine .of_later (by rw [hrefused]; rfl) (h.least fun halt => ?_)
    rw [hlast]
    exact hreturns halt
  case spent => exact congrArg Nat.succ (h.spent e' (hlast.trans he'))
  case returned => rw [h.returned, hlast]; rfl

end Series

-- ============================================================================
-- Retries
-- ============================================================================

/-- An operator as a run invokes it from one of its states. -/
def RunContext.series (ctx : RunContext σ) (r : Run σ) (op : Operator σ) (name : String)
    (depth : Nat) (input : Value) (args : Arguments) : Series σ :=
  ⟨ctx.host, r.pools, op, name, depth, input, args, r.state⟩

namespace Step

theorem outcome_attempt_first (ctx : RunContext σ) (node : Node) (op : Operator σ) (name : String)
    (depth : Nat) (input : Value) (args : Arguments) (r : Run σ) :
    (attempt ctx node op name depth input args).outcome r =
      (.ok (.ok ((ctx.series r op name depth input args).result 0)),
        (ctx.series r op name depth input args).after node.line 1 r) := by
  rw [outcome_attempt_eq]
  unfold Series.after Series.calls Series.warnings
  rw [Finset.sum_range_one]
  simp only [List.range_one, List.flatMap_singleton]
  rfl

/-- An attempt ends the invocation if it is no refusal, or no retry is left. -/
theorem outcome_attemptUpTo_last {ctx : RunContext σ} {node : Node} {op : Operator σ}
    {name : String} {depth : Nat} {input : Value} {args : Arguments} {retries : Nat} {r : Run σ}
    (hspent : ∀ e, (ctx.series r op name depth input args).result 0 = .error (.error e) →
      retries = 0) :
    (attemptUpTo ctx node op name depth input args retries).outcome r =
      (((ctx.series r op name depth input args).result 0).ending node name,
        (ctx.series r op name depth input args).after node.line 1 r) := by
  cases retries with
  | zero =>
    unfold attemptUpTo
    rw [outcome_bind, outcome_attempt_first]
    match (ctx.series r op name depth input args).result 0 with
    | .ok v => rfl
    | .error (.error e) => rfl
    | .error (.halt h) => rfl
  | succ retries =>
    unfold attemptUpTo
    rw [outcome_bind, outcome_attempt_first]
    match hresult : (ctx.series r op name depth input args).result 0 with
    | .ok v => rfl
    | .error (.error e) => exact absurd (hspent e hresult) (Nat.succ_ne_zero retries)
    | .error (.halt h) => rfl

/-- A refusal is followed by the next attempt as long as a retry is left. -/
theorem outcome_attemptUpTo_again {ctx : RunContext σ} {node : Node} {op : Operator σ}
    {name : String} {depth : Nat} {input : Value} {args : Arguments} {r : Run σ}
    {e : OperatorError}
    (hrefused : (ctx.series r op name depth input args).result 0 = .error (.error e))
    (retries : Nat) :
    (attemptUpTo ctx node op name depth input args (retries + 1)).outcome r =
      (attemptUpTo ctx node op name depth input args retries).outcome
        (((ctx.series r op name depth input args).after node.line 1 r).retried 1) := by
  conv_lhs => unfold attemptUpTo
  rw [outcome_bind, outcome_attempt_first, hrefused]
  rfl

/-- The induction is on the retries that are left. After a refusal the rest of the series is a
series of its own. -/
theorem comes_attemptUpTo (ctx : RunContext σ) (node : Node) (op : Operator σ) (name : String)
    (depth : Nat) (input : Value) (args : Arguments) (retries : Nat) (r : Run σ) :
    ∃ count, (ctx.series r op name depth input args).Comes retries node r
      ((attemptUpTo ctx node op name depth input args retries).outcome r) count := by
  induction retries generalizing r with
  | zero =>
    rw [outcome_attemptUpTo_last fun _ _ => rfl]
    exact ⟨1, Series.comes_first fun _ _ => rfl⟩
  | succ retries ih =>
    by_cases hrefused :
        ∃ e, (ctx.series r op name depth input args).result 0 = .error (.error e)
    · obtain ⟨e, hrefused⟩ := hrefused
      rw [outcome_attemptUpTo_again hrefused]
      obtain ⟨count, hrest⟩ := ih
        (((ctx.series r op name depth input args).after node.line 1 r).retried 1)
      exact ⟨count + 1, .of_later hrefused hrest⟩
    · have hspent : ∀ e, (ctx.series r op name depth input args).result 0 = .error (.error e) →
          retries + 1 = 0 := fun e he => absurd ⟨e, he⟩ hrefused
      rw [outcome_attemptUpTo_last hspent]
      exact ⟨1, Series.comes_first hspent⟩

/-- An operator that was found is attempted once, and again after each refusal as long as a retry
is left. It is not looked for again in between, and the host hears of every attempt under the tier
at which it was found. -/
theorem invoke_retries {ctx : RunContext σ} {name : String} {depth : Nat} {input : Value}
    {r : Run σ} {op : Operator σ} {s : σ}
    (hresolve : ctx.host.resolve name (.ofInput input depth) r.state = (.ok op, s)) (node : Node)
    (args : Arguments) :
    ∃ count, (ctx.series { r with state := s } op name depth input args).Comes
      ctx.config.operatorRetries node r ((invoke ctx node name depth input args).outcome r)
      count := by
  obtain ⟨count, h⟩ := comes_attemptUpTo ctx node op name depth input args
    ctx.config.operatorRetries { r with state := s }
  rw [outcome_invoke, hresolve]
  exact ⟨count, { h with left := h.left }⟩

/-- An operator of a session's own that refuses some times before it gives its input back. -/
def flaky (refusals : Nat) : Operator (Session Nat) where
  name := "flaky"
  arity := .any
  tier := .domain
  library := "own"
  body input _ := .perform fun s =>
    (if s.own < refusals then Attempt.refuseDomain "transient" else .ok input,
      { s with own := s.own + 1 })

theorem invoke_retries_tripping :
    let op := (flaky 2).logged
    let config : Config := { operatorRetries := 5, breaker := { threshold := 2 } }
    let ctx := (Session.engine config [flaky 2]).logged.context (.parse "")
    let node : Node :=
      { kind := .operator, name := "flaky", arguments := [], raw := "flaky()", id := 1, line := 1,
        terminal := false, pipeline := 0, scope := none }
    let r : Run (Session Nat × List Outcome) :=
      { state := (.ofConfig config 0, []), pools := .ofCapacity 1 }
    let series := ctx.series r op "flaky" 0 (.text "sensor") []
    let out := (invoke ctx node "flaky" 0 (.text "sensor") []).outcome r
    ctx.host.resolve "flaky" (.ofInput (.text "sensor") 0) r.state = (.ok op, r.state) ∧
      series.Comes 5 node r out 3 ∧ out.1 = .ok (.ok (.text "sensor")) ∧
      out.2.metrics.retries = 2 ∧ out.2.metrics.operatorCalls = 3 ∧
      (series.state 2).1.registry.breaker.tripped = [⟨"flaky", .domain⟩] ∧
      out.2.state.2 = [⟨"flaky", .domain, false⟩, ⟨"flaky", .domain, false⟩,
        ⟨"flaky", .domain, true⟩] := by
  intro op config ctx node r series out
  have hresolve : ctx.host.resolve "flaky" (.ofInput (.text "sensor") 0) r.state =
      (.ok op, r.state) := rfl
  obtain ⟨count, h⟩ := invoke_retries hresolve node []
  have hreturns : ∀ i h, series.result i ≠ .error (.halt h) := by
    intro i h
    show (if (series.state i).1.own < 2 then Attempt.refuseDomain "transient"
      else .ok (Value.text "sensor")) ≠ _
    split <;> nofun
  have hthird : series.IsCount 5 3 := by
    refine ⟨.inr ⟨2, rfl, rfl⟩, ?_⟩
    rintro n (rfl | ⟨i, rfl, hok⟩)
    · decide
    · have hfirst : (series.result 0).isOk = false := rfl
      have hsecond : (series.result 1).isOk = false := rfl
      rcases i with _ | _ | i
      · exact absurd hok (by rw [hfirst]; exact Bool.false_ne_true)
      · exact absurd hok (by rw [hsecond]; exact Bool.false_ne_true)
      · exact Nat.le_add_left 3 i
  obtain rfl : count = 3 := (h.least (hreturns _)).unique hthird
  exact ⟨hresolve, h, h.returned, congrArg (·.metrics.retries) h.left,
    congrArg (·.metrics.operatorCalls) h.left, rfl, congrArg (·.state.2) h.left⟩

end Step

end Sluice
