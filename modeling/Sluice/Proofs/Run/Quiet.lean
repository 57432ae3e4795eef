/-
  Sluice.Proofs.Run.Quiet

  What operators, arguments and lenses can do to the state of a run, said once. They warn,
  resolve a name, attempt an operator, or count a retry; nothing else. `Quiet` lists these four
  moves for an invariant, and `Keeps` says that a part of a pipeline's run preserves it, however
  it ends. Every invariant that survives the four moves survives `invoke` and `applyLens`.

  Such a part fails only as an operator refuses: other causes come of arriving at a node.
-/

import Sluice.Proofs.Run.Outcome

namespace Sluice

variable {σ α β : Type}

/-- An invariant survives what operators and lenses do. Operators that were found are `good`,
and a good operator halts only as `halts` allows. Refusals are among the `causes` of failures. -/
structure Quiet (ctx : RunContext σ) (good : Operator σ → Prop) (causes : Cause → Prop)
    (halts : Halt → Prop) (inv : Run σ → Prop) : Prop where
  refusal : ∀ e : OperatorError, causes (.ofRefusal e)
  warn : ∀ {r : Run σ} (message : String), inv r → inv (r.warn message)
  retry : ∀ {r : Run σ}, inv r → inv (r.count fun m => { m with retries := m.retries + 1 })
  resolve : ∀ {r : Run σ} (name : String) (profile : CallProfile), inv r →
    inv { r with state := (ctx.host.resolve name profile r.state).2 }
  found : ∀ {r : Run σ} (name : String) (profile : CallProfile) (op : Operator σ), inv r →
    (ctx.host.resolve name profile r.state).1 = .ok op → good op
  attempt : ∀ {r r' : Run σ} {node : Node} {op : Operator σ} {name : String} {depth : Nat}
    {input : Value} {args : Arguments} {result : Attempt Value}, good op → inv r →
    (Step.attempt ctx node op name depth input args).outcome r = (.ok (.ok result), r') →
    ((∀ h, result ≠ .error (.halt h)) → inv r') ∧ ∀ h, result = .error (.halt h) → halts h

namespace Step

/-- An outcome that leaves an invariant standing, unless it is a halt that `halts` allows; a
failure is one of `causes`. -/
def Ends (causes : Cause → Prop) (halts : Halt → Prop) (inv : Run σ → Prop) :
    Except Halt (Except Failure α) × Run σ → Prop
  | (.ok (.ok _), r) => inv r
  | (.ok (.error f), r) => inv r ∧ causes f.cause
  | (.error h, _) => halts h

/-- A part of a pipeline's run preserves an invariant, however it ends. -/
def Keeps (causes : Cause → Prop) (halts : Halt → Prop) (inv : Run σ → Prop) (m : Step σ α) :
    Prop :=
  ∀ r, inv r → Ends causes halts inv (m.outcome r)

variable {causes : Cause → Prop} {halts : Halt → Prop} {inv : Run σ → Prop}

-- ============================================================================
-- Building blocks
-- ============================================================================

theorem keeps_pure (a : α) : Keeps causes halts inv (pure a : Step σ α) :=
  fun _ hr => hr

theorem keeps_failAt {node : Node} {operator : String} {cause : Cause} (h : causes cause) :
    Keeps causes halts inv (failAt node operator cause : Step σ α) :=
  fun _ hr => ⟨hr, h⟩

theorem keeps_modify {f : Run σ → Run σ} (h : ∀ r, inv r → inv (f r)) :
    Keeps causes halts inv (modify f : Step σ Unit) :=
  fun r hr => h r hr

theorem keeps_bind {m : Step σ α} {f : α → Step σ β} (hm : Keeps causes halts inv m)
    (hf : ∀ a, Keeps causes halts inv (f a)) : Keeps causes halts inv (m >>= f) := by
  intro r hr
  have h := hm r hr
  rw [outcome_bind]
  match hout : m.outcome r with
  | (.ok (.ok a), r') =>
    rw [hout] at h
    exact hf a r' h
  | (.ok (.error e), r') =>
    rw [hout] at h
    exact h
  | (.error e, r') =>
    rw [hout] at h
    exact h

/-- A part that looks at the state first is judged at the state it sees. -/
theorem keeps_get_bind {f : Run σ → Step σ α} (hf : ∀ s, Keeps causes halts inv (f s)) :
    Keeps causes halts inv (get >>= f) := by
  intro r hr
  rw [outcome_get_bind]
  exact hf r r hr

theorem keeps_mapM {f : α → Step σ β} (hf : ∀ a, Keeps causes halts inv (f a)) (as : List α) :
    Keeps causes halts inv (as.mapM f) := by
  induction as with
  | nil => exact keeps_pure []
  | cons a rest ih =>
    rw [List.mapM_cons]
    exact keeps_bind (hf a) fun b => keeps_bind ih fun bs => keeps_pure (b :: bs)

theorem keeps_foldlM {f : β → α → Step σ β} (hf : ∀ b a, Keeps causes halts inv (f b a))
    (as : List α) (b : β) : Keeps causes halts inv (as.foldlM f b) := by
  induction as generalizing b with
  | nil => exact keeps_pure b
  | cons a rest ih =>
    rw [List.foldlM_cons]
    exact keeps_bind (hf b a) fun b' => ih b'

-- ============================================================================
-- Operators
-- ============================================================================

variable {ctx : RunContext σ} {good : Operator σ → Prop}

theorem keeps_evalArgument (hq : Quiet ctx good causes halts inv) (node : Node)
    (argument : Argument) :
    Keeps causes halts inv (evalArgument ctx node argument : Step σ Value) := by
  unfold evalArgument
  cases argument with
  | given v => exact keeps_pure v
  | source text =>
    simp only
    split
    · exact keeps_pure _
    · refine keeps_get_bind fun s => ?_
      split
      · exact keeps_pure _
      · exact keeps_bind (keeps_modify fun r hr => hq.warn _ hr) fun _ => keeps_pure _

theorem keeps_evalArguments (hq : Quiet ctx good causes halts inv) (node : Node)
    (arguments : List Argument) :
    Keeps causes halts inv (evalArguments ctx node arguments : Step σ Arguments) :=
  keeps_mapM (keeps_evalArgument hq node) arguments

/-- An attempt always comes to a result; it is what the operator made of it. -/
theorem outcome_attempt (ctx : RunContext σ) (node : Node) (op : Operator σ) (name : String)
    (depth : Nat) (input : Value) (args : Arguments) (r : Run σ) :
    ∃ r', (attempt ctx node op name depth input args).outcome r =
      (.ok (.ok (op.invoke (some r.pools) (ctx.host.caller r.pools depth) input args
        r.state).1), r') :=
  ⟨_, rfl⟩

/-- What follows an attempt is judged on its result. -/
theorem keeps_attempt_bind (hq : Quiet ctx good causes halts inv) {node : Node} {op : Operator σ}
    (hop : good op) {name : String} {depth : Nat} {input : Value} {args : Arguments}
    {f : Attempt Value → Step σ α}
    (hf : ∀ result, (∀ h, result ≠ .error (.halt h)) → Keeps causes halts inv (f result))
    (hhalt : ∀ h, f (.error (.halt h)) = halt h) :
    Keeps causes halts inv (attempt ctx node op name depth input args >>= f) := by
  intro r hr
  obtain ⟨r', h⟩ := outcome_attempt ctx node op name depth input args r
  obtain ⟨hr', hh⟩ := hq.attempt hop hr h
  rw [outcome_bind, h]
  generalize (op.invoke _ _ _ _ _).1 = result at hr' hh ⊢
  match result with
  | .ok v =>
    have hreturns : ∀ h, (Except.ok v : Attempt Value) ≠ .error (.halt h) := fun h => nofun
    exact hf _ hreturns r' (hr' hreturns)
  | .error (.error e) =>
    have hreturns : ∀ h, (Except.error (.error e) : Attempt Value) ≠ .error (.halt h) :=
      fun h => nofun
    exact hf _ hreturns r' (hr' hreturns)
  | .error (.halt h) =>
    show Ends causes halts inv ((f (.error (.halt h))).outcome r')
    rw [hhalt]
    exact hh h rfl

theorem keeps_attemptUpTo (hq : Quiet ctx good causes halts inv) {node : Node} {op : Operator σ}
    (hop : good op) (name : String) (depth : Nat) (input : Value) (args : Arguments)
    (retries : Nat) :
    Keeps causes halts inv (attemptUpTo ctx node op name depth input args retries) := by
  induction retries with
  | zero =>
    refine keeps_attempt_bind hq hop (fun result hreturns => ?_) fun h => rfl
    match result with
    | .ok v => exact keeps_pure v
    | .error (.halt h) => exact absurd rfl (hreturns h)
    | .error (.error e) => exact keeps_failAt (hq.refusal e)
  | succ retries ih =>
    refine keeps_attempt_bind hq hop (fun result hreturns => ?_) fun h => rfl
    match result with
    | .ok v => exact keeps_pure v
    | .error (.halt h) => exact absurd rfl (hreturns h)
    | .error (.error e) => exact keeps_bind (keeps_modify fun r hr => hq.retry hr) fun _ => ih

theorem keeps_invoke (hq : Quiet ctx good causes halts inv) (node : Node) (name : String)
    (depth : Nat) (input : Value) (args : Arguments) :
    Keeps causes halts inv (invoke ctx node name depth input args) := by
  intro r hr
  have hr' := hq.resolve name (.ofInput input depth) hr
  have hgood := hq.found name (.ofInput input depth) (r := r)
  unfold invoke
  rw [outcome_get_bind]
  -- The name is resolved once, before the first attempt.
  match hres : ctx.host.resolve name (.ofInput input depth) r.state with
  | (.error e, state) =>
    rw [hres] at hr'
    have hfail : Keeps causes halts inv (failAt node name (.unknownOperator name) : Step σ Value) :=
      keeps_failAt (hq.refusal (.unknownOperator name))
    exact hfail _ hr'
  | (.ok op, state) =>
    rw [hres] at hr'
    exact keeps_attemptUpTo hq (hgood op hr (by rw [hres])) name depth input args _ _ hr'

-- ============================================================================
-- Lenses
-- ============================================================================

theorem keeps_expectItems (hq : Quiet ctx good causes halts inv) (node : Node) (v : Value) :
    Keeps causes halts inv (expectItems node v : Step σ (List Value)) := by
  cases v <;> first | exact keeps_pure _ | exact keeps_failAt (hq.refusal (.typeMismatch _ _))

theorem keeps_addItems (hq : Quiet ctx good causes halts inv) (node : Node) (total : Number)
    (items : List Value) :
    Keeps causes halts inv (addItems node total items : Step σ Number) := by
  induction items generalizing total with
  | nil => exact keeps_pure total
  | cons v rest ih =>
    unfold addItems
    split
    · exact ih _
    · exact keeps_failAt (hq.refusal (.typeMismatch _ _))

theorem keeps_sum (hq : Quiet ctx good causes halts inv) (node : Node) (items : List Value) :
    Keeps causes halts inv (sum node items : Step σ Value) :=
  keeps_bind (keeps_addItems hq node _ items) fun _ => keeps_pure _

theorem keeps_evalStep (hq : Quiet ctx good causes halts inv) (node : Node) (v : Value)
    (step : LensStep) : Keeps causes halts inv (evalStep ctx node v step) := by
  cases step with
  | field path => exact keeps_pure _
  | compare path op operand =>
    exact keeps_bind (keeps_evalArgument hq node operand) fun _ => keeps_pure _
  | sum => cases v <;> first | exact keeps_pure _ | exact keeps_sum hq node _
  | call name arguments =>
    exact keeps_bind (keeps_evalArguments hq node arguments) fun args =>
      keeps_invoke hq node name 1 v args

theorem keeps_evalSteps (hq : Quiet ctx good causes halts inv) (node : Node) (steps : List LensStep)
    (v : Value) : Keeps causes halts inv (evalSteps ctx node steps v) :=
  keeps_foldlM (keeps_evalStep hq node) steps v

theorem keeps_keepItems (hq : Quiet ctx good causes halts inv) (node : Node) (steps : List LensStep)
    (items : List Value) : Keeps causes halts inv (keepItems ctx node steps items) := by
  induction items with
  | nil => exact keeps_pure []
  | cons v rest ih =>
    exact keeps_bind (keeps_evalSteps hq node steps v) fun _ => keeps_bind ih fun _ => keeps_pure _

theorem keeps_applyLens (hq : Quiet ctx good causes halts inv) (node : Node) (lens : Lens)
    (body : LensBody) (packet : Packet) :
    Keeps causes halts inv (applyLens ctx node lens body packet) := by
  have hitems : Keeps causes halts inv (expectItems node packet.value : Step σ (List Value)) :=
    keeps_expectItems hq node packet.value
  cases lens with
  | map =>
    refine keeps_bind hitems fun items => keeps_bind ?_ fun _ => keeps_pure _
    exact keeps_mapM (keeps_evalSteps hq node body.steps) items
  | filter =>
    refine keeps_bind hitems fun items => keeps_bind ?_ fun _ => keeps_pure _
    exact keeps_keepItems hq node body.steps items
  | split =>
    exact keeps_bind (keeps_evalSteps hq node body.steps packet.value) fun _ => keeps_pure _
  | reduce =>
    refine keeps_bind hitems fun items => ?_
    split
    · exact keeps_bind (keeps_sum hq node items) fun _ => keeps_pure _
    · split
      · refine keeps_bind (keeps_mapM (keeps_evalSteps hq node body.stepsWithoutSum) items) ?_
        exact fun mapped => keeps_bind (keeps_sum hq node mapped) fun _ => keeps_pure _
      · exact keeps_bind (keeps_modify fun r hr => hq.warn _ hr) fun _ => keeps_pure _

end Step

end Sluice
