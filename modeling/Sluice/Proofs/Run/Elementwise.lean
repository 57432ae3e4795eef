/-
  Sluice.Proofs.Run.Elementwise

  The two ways to call an operator on every element of an array. A lens `map` or `filter` whose
  body is a call goes over the elements itself, and every call is one that a node makes. The core
  operator of the same name is given the operator's name as its first argument, and asks its host
  to call it. Each resolves the name, counts the levels of calls, hears of the outcome and words
  the failure in its own place.

  What the two come to is the same up to the place of a failure, which is what `gist` leaves out.
  A node's own call is a call from one level above (`gist_invoke`), and from there on the two go
  over the elements in step (`gist_each`).

  Main statement: on a session that keeps a log of what its host is asked, the two forms give the
  same packet or fail for the same cause, leave the same registry, and make the same calls; the
  operator's own are around them.
-/

import Sluice.Proofs.Host.Observed
import Sluice.Proofs.Program.Draft
import Sluice.Proofs.Run.Tandem

namespace Sluice

variable {σ τ α β : Type}

-- ============================================================================
-- What is left of an outcome
-- ============================================================================

/-- What came of a part of a pipeline's run, apart from where it failed: its result, the pools
and the state of the host. -/
def Step.gist (out : Except Halt (Except Failure α) × Run σ) :
    Except Halt (Except Cause α) × PoolStore × σ :=
  (out.1.map (Except.mapError Failure.cause), out.2.pools, out.2.state)

/-- What an attempt means for its pipeline. -/
def Attempt.meaning : Attempt α → Except Halt (Except Cause α)
  | .ok a => .ok (.ok a)
  | .error (.error e) => .ok (.error (.ofRefusal e))
  | .error (.halt h) => .error h

/-- What an attempt on some pools leaves of its pipeline's run. -/
def Attempt.gist (pools : PoolStore) (out : Attempt α × Trail σ) :
    Except Halt (Except Cause α) × PoolStore × σ :=
  (meaning out.1, pools, out.2.state)

/-- An attempt that means a result or a failure was not halted. -/
theorem Attempt.isOk_of_meaning {attempt : Attempt α} {f : α → β} {ended : Except Failure β}
    (h : (meaning attempt).map (Except.map f) =
      (Except.ok ended : Except Halt _).map (Except.mapError Failure.cause)) :
    (∀ h, attempt ≠ .error (.halt h)) ∧ attempt.isOk = ended.isOk := by
  cases attempt with
  | ok a =>
    cases ended with
    | ok b => exact ⟨fun _ => nofun, rfl⟩
    | error failure => cases h
  | error fault =>
    cases fault with
    | error e =>
      cases ended with
      | ok b => cases h
      | error failure => exact ⟨fun _ => nofun, rfl⟩
    | halt halt => cases h

namespace Step

variable {out : Except Halt (Except Failure α) × Run σ} {pools : PoolStore} {s : σ}

theorem gist_bind (m : Step σ α) (f : α → Step σ β) (r : Run σ) :
    gist ((m >>= f).outcome r) =
      match m.outcome r with
      | (.ok (.ok a), r') => gist ((f a).outcome r')
      | (.ok (.error e), r') => (.ok (.error e.cause), r'.pools, r'.state)
      | (.error h, r') => (.error h, r'.pools, r'.state) := by
  rw [outcome_bind]
  match m.outcome r with
  | (.ok (.ok a), r') => rfl
  | (.ok (.error e), r') => rfl
  | (.error h, r') => rfl

/-- A result is changed in the same way, wherever it comes from. -/
theorem gist_map (m : Step σ α) (f : α → β) (r : Run σ) :
    gist ((m >>= fun a => pure (f a)).outcome r) =
      ((gist (m.outcome r)).1.map (Except.map f), (gist (m.outcome r)).2) := by
  rw [gist_bind]
  match m.outcome r with
  | (.ok (.ok a), r') => rfl
  | (.ok (.error e), r') => rfl
  | (.error h, r') => rfl

/-- What follows on a part goes on from the pools and the state that its gist tells. -/
theorem gist_bind_ok {m : Step σ α} {r : Run σ} {a : α}
    (hm : gist (m.outcome r) = (.ok (.ok a), pools, s)) (f : α → Step σ β) :
    ∃ r' : Run σ, r'.pools = pools ∧ r'.state = s ∧
      gist ((m >>= f).outcome r) = gist ((f a).outcome r') := by
  rw [gist_bind]
  rcases hout : m.outcome r with ⟨halt | failure | b, r'⟩
  all_goals rw [hout] at hm; cases hm
  exact ⟨r', rfl, rfl, rfl⟩

theorem gist_bind_error {m : Step σ α} {r : Run σ} {cause : Cause}
    (hm : gist (m.outcome r) = (.ok (.error cause), pools, s)) (f : α → Step σ β) :
    gist ((m >>= f).outcome r) = (.ok (.error cause), pools, s) := by
  rw [gist_bind]
  rcases hout : m.outcome r with ⟨halt | failure | b, r'⟩
  all_goals rw [hout] at hm; cases hm
  rfl

theorem gist_bind_halt {m : Step σ α} {r : Run σ} {h : Halt}
    (hm : gist (m.outcome r) = (.error h, pools, s)) (f : α → Step σ β) :
    gist ((m >>= f).outcome r) = (.error h, pools, s) := by
  rw [gist_bind]
  rcases hout : m.outcome r with ⟨halt | failure | b, r'⟩
  all_goals rw [hout] at hm; cases hm
  rfl

end Step

-- ============================================================================
-- Arguments and calls
-- ============================================================================

/-- The value of an argument where the pools have some values. -/
def Argument.valueIn (json : Json.Reader) (pools : PoolStore) : Argument → Value
  | given v => v
  | source text =>
    match (source text).poolReference? with
    | none => Literal.read json text
    | some pool => (pools.value? pool).getD .null

namespace Step

theorem gist_evalArgument (ctx : RunContext σ) (node : Node) (argument : Argument) (r : Run σ) :
    gist ((evalArgument ctx node argument).outcome r) =
      (.ok (.ok (argument.valueIn ctx.json r.pools)), r.pools, r.state) := by
  unfold evalArgument Argument.valueIn
  cases argument with
  | given v => rfl
  | source text =>
    simp only
    cases (Argument.source text).poolReference? with
    | none => rfl
    | some pool =>
      simp only
      rw [outcome_get_bind]
      cases r.pools.value? pool with
      | some v => rfl
      | none => rfl

/-- Evaluating arguments gives their values and changes neither pools nor host. -/
theorem gist_evalArguments (ctx : RunContext σ) (node : Node) (arguments : List Argument)
    (r : Run σ) :
    gist ((evalArguments ctx node arguments).outcome r) =
      (.ok (.ok (arguments.map (·.valueIn ctx.json r.pools))), r.pools, r.state) := by
  induction arguments generalizing r with
  | nil => rfl
  | cons argument rest ih =>
    unfold evalArguments at ih ⊢
    rw [List.mapM_cons]
    obtain ⟨r₁, hpools₁, hstate₁, hfirst⟩ := gist_bind_ok (gist_evalArgument ctx node argument r) _
    rw [hfirst]
    obtain ⟨r₂, hpools₂, hstate₂, hrest⟩ := gist_bind_ok (ih r₁) _
    rw [hrest]
    show (_, r₂.pools, r₂.state) = _
    rw [hpools₂, hstate₂, hpools₁, hstate₁]
    rfl

/-- Without retries an implementation is attempted once, and its refusal is the failure. -/
theorem gist_attemptUpTo_zero (ctx : RunContext σ) (node : Node) (op : Operator σ)
    (name : String) (depth : Nat) (input : Value) (args : Arguments) (r : Run σ) :
    gist ((attemptUpTo ctx node op name depth input args 0).outcome r) =
      let invoked := op.invoke (some r.pools) (ctx.host.caller r.pools depth) input args r.state
      Attempt.gist r.pools (invoked.1, { invoked.2 with
        state := ctx.host.record name op.tier invoked.1.isOk invoked.2.state }) := by
  unfold attemptUpTo
  rw [gist_bind, outcome_attempt_eq]
  simp only
  generalize op.invoke _ _ _ _ _ = invoked
  obtain ⟨result, trail⟩ := invoked
  match result with
  | .ok v => rfl
  | .error (.error e) => rfl
  | .error (.halt h) => rfl

end Step

/-- An operator at some depth of a node calls others one level deeper. -/
theorem Host.caller_eq (host : Host σ) (pools : PoolStore) {depth : Nat}
    (hdepth : depth < nestingAllowance) (name : String) (input : Value) (args : Arguments)
    (s : σ) :
    host.caller pools depth name input args s =
      match host.resolve name (.ofInput input (depth + 1)) s with
      | (.error _, s) => (Attempt.refuse (.unknownOperator name), { state := s })
      | (.ok op, s) =>
        let invoked := op.invoke (some pools) (host.caller pools (depth + 1)) input args s
        (invoked.1, { invoked.2 with
          state := host.record name op.tier invoked.1.isOk invoked.2.state
          nested := invoked.2.nested + 1 }) := by
  have hallowance : nestingAllowance - depth = (nestingAllowance - (depth + 1)) + 1 := by omega
  have hword : ¬ Number.maxWord ≤ depth := by
    have hbound : nestingAllowance < Number.maxWord := by decide
    omega
  unfold caller
  rw [hallowance]
  unfold call
  refine (if_neg hword).trans ?_
  cases host.resolve name (.ofInput input (depth + 1)) s with
  | mk found s =>
    cases found with
    | error _ => rfl
    | ok op => rfl

namespace Step

/-- Without retries, the call that a node makes at some depth is the call that an operator makes
from the level above. -/
theorem gist_invoke {ctx : RunContext σ} (hretries : ctx.config.operatorRetries = 0)
    (node : Node) (name : String) {depth : Nat} (hdepth : depth < Host.nestingAllowance)
    (input : Value) (args : Arguments) (r : Run σ) :
    gist ((invoke ctx node name (depth + 1) input args).outcome r) =
      Attempt.gist r.pools (ctx.host.caller r.pools depth name input args r.state) := by
  rw [outcome_invoke, hretries, ctx.host.caller_eq r.pools hdepth]
  match ctx.host.resolve name (.ofInput input (depth + 1)) r.state with
  | (.error e, s) => rfl
  | (.ok op, s) =>
    simp only
    rw [gist_attemptUpTo_zero]
    simp only
    generalize op.invoke _ _ _ _ _ = invoked
    obtain ⟨result, trail⟩ := invoked
    match result with
    | .ok v => rfl
    | .error (.error e) => rfl
    | .error (.halt h) => rfl

/-- A lens body that is a call calls the operator as one at the node would. -/
theorem gist_evalSteps_call {ctx : RunContext σ} (hretries : ctx.config.operatorRetries = 0)
    (node : Node) (name : String) (arguments : List Argument) (v : Value) (r : Run σ) :
    gist ((evalSteps ctx node [.call name arguments] v).outcome r) =
      Attempt.gist r.pools
        (ctx.host.caller r.pools 0 name v (arguments.map (·.valueIn ctx.json r.pools))
          r.state) := by
  have hsteps : evalSteps ctx node [.call name arguments] v =
      evalArguments ctx node arguments >>= fun args => invoke ctx node name 1 v args := by
    unfold evalSteps
    rw [List.foldlM_cons]
    simp only [List.foldlM_nil, bind_pure]
    rfl
  rw [hsteps]
  obtain ⟨r', hpools, hstate, hinvoke⟩ := gist_bind_ok (gist_evalArguments ctx node arguments r)
    fun args => invoke ctx node name 1 v args
  rw [hinvoke, gist_invoke hretries node name (by decide), hpools, hstate]

end Step

-- ============================================================================
-- The two forms
-- ============================================================================

/-- What a lens or a core operator makes of the elements of an array. -/
inductive Elementwise where
  | map
  | filter
deriving Repr, DecidableEq

namespace Elementwise

/-- The lens of a form. Its name is the operator's as well. -/
def lens : Elementwise → Lens
  | map => .map
  | filter => .filter

/-- The work of the core operator. -/
def body : Elementwise → Body σ
  | map => Core.mapWith
  | filter => Core.filterWith

/-- The core operator. -/
def operator (form : Elementwise) : Operator σ :=
  ⟨form.lens.name, .atLeast 1, .core, "core", form.body⟩

/-- What takes the place of an element for which the operator gave a result. -/
def kept (item result : Value) : Elementwise → List Value
  | map => [result]
  | filter => if result.isTruthy then [item] else []

/-- The core operator on the elements, where `done` are the results so far, the last one first. -/
def ask (name : String) (args : Arguments) (done items : List Value) : Elementwise → Action σ
  | map => Core.mapItems name args done items
  | filter => Core.keepItems name args done items

/-- The lens on the elements. -/
def each (ctx : RunContext σ) (node : Node) (steps : List LensStep) (items : List Value) :
    Elementwise → Step σ (List Value)
  | map => items.mapM (Step.evalSteps ctx node steps)
  | filter => Step.keepItems ctx node steps items

theorem ask_nil (form : Elementwise) (name : String) (args : Arguments) (done : List Value) :
    (form.ask name args done [] : Action σ) = .finish (.ok (.array done.reverse)) := by
  cases form <;> rfl

/-- The operator is called on the first element, and its refusal is the end. -/
theorem ask_cons (form : Elementwise) (name : String) (args : Arguments) (done : List Value)
    (item : Value) (rest : List Value) :
    (form.ask name args done (item :: rest) : Action σ) = .call name item args fun
      | .ok v => form.ask name args ((form.kept item v).reverse ++ done) rest
      | .error e => .finish (Attempt.refuse e) := by
  cases form with
  | map =>
    show Action.call name item args _ = _
    congr
  | filter =>
    show Action.call name item args _ = _
    congr 1
    funext result
    cases result with
    | error e => rfl
    | ok v =>
      show Core.keepItems name args (if v.isTruthy then item :: done else done) rest =
        Core.keepItems name args ((if v.isTruthy then [item] else []).reverse ++ done) rest
      split <;> rfl

theorem each_cons (form : Elementwise) (ctx : RunContext σ) (node : Node)
    (steps : List LensStep) (item : Value) (rest : List Value) :
    form.each ctx node steps (item :: rest) = do
      let v ← Step.evalSteps ctx node steps item
      let vs ← form.each ctx node steps rest
      return form.kept item v ++ vs := by
  cases form with
  | map =>
    show List.mapM _ (item :: rest) = _
    rw [List.mapM_cons]
    rfl
  | filter =>
    show Step.keepItems ctx node steps (item :: rest) = _
    unfold Step.keepItems
    congr 1
    funext v
    show (do
      let kept ← Step.keepItems ctx node steps rest
      return if v.isTruthy then item :: kept else kept) = _
    unfold kept
    split <;> rfl

/-- Both forms on the elements: as long as no call is refused they go on in step. -/
theorem gist_each {ctx : RunContext σ} (hretries : ctx.config.operatorRetries = 0)
    (form : Elementwise) (node : Node) (name : String) (arguments : List Argument)
    (items done : List Value) (r : Run σ) (trail : Trail σ) (htrail : trail.state = r.state) :
    Attempt.gist r.pools
        ((form.ask name (arguments.map (·.valueIn ctx.json r.pools)) done items).run
          (some r.pools) (ctx.host.caller r.pools 0) trail) =
      Step.gist ((do
        let vs ← form.each ctx node [.call name arguments] items
        return Value.array (done.reverse ++ vs)).outcome r) := by
  induction items generalizing done r trail with
  | nil =>
    rw [ask_nil]
    show (_, r.pools, trail.state) = _
    rw [htrail]
    cases form <;> simp [each, Step.keepItems] <;> rfl
  | cons item rest ih =>
    rw [ask_cons, each_cons, bind_assoc]
    have hitem := Step.gist_evalSteps_call hretries node name arguments item r
    unfold Action.run
    rw [htrail]
    generalize ctx.host.caller r.pools 0 name item _ r.state = called at hitem ⊢
    obtain ⟨result, inner⟩ := called
    cases result with
    | ok v =>
      obtain ⟨r', hpools, hstate, hnext⟩ := Step.gist_bind_ok hitem _
      rw [hnext]
      have hrest := ih ((form.kept item v).reverse ++ done) r'
        ⟨inner.state, trail.nested + inner.nested, trail.warnings ++ inner.warnings⟩ hstate.symm
      rw [hpools] at hrest
      simp only
      rw [hrest]
      simp
    | error fault =>
      cases fault with
      | error e =>
        rw [Step.gist_bind_error hitem]
        rfl
      | halt h =>
        rw [Step.gist_bind_halt hitem]
        rfl

/-- The segment is `map {name(arguments)}`, or `filter`. -/
def IsLens (form : Elementwise) (name : String) (arguments : List Argument)
    (segment : Segment) : Prop :=
  ∃ raw, segment.kind = .lens form.lens ⟨raw, [.call name arguments]⟩

/-- The segment is `map(name, arguments)`, or `filter`, where the first argument is the name. -/
structure IsOperator (form : Elementwise) (json : Json.Reader) (pools : PoolStore) (name : String)
    (arguments : List Argument) (segment : Segment) : Prop where
  kind : segment.kind = .operator
  operator : segment.name = form.lens.name
  arguments : ∃ first, first.valueIn json pools = .text name ∧
    segment.arguments = first :: arguments

theorem trimChars_of_identifier {name : List Char} (hname : Segment.isIdentifier name = true) :
    Text.trimChars name = name :=
  Text.trimChars_of_solid (Draft.solid_of_name (Draft.isNameChar_of_isIdentifier hname)
    (Draft.ne_nil_of_isIdentifier hname))

/-- An identifier names an operator as it is. -/
theorem operatorName_of_identifier {name : String} (hname : Segment.isIdentifier name.toList = true)
    (args : Arguments) : Core.operatorName (.text name :: args) = .ok name := by
  have hfull : ¬ (Text.trimChars name.toList).isEmpty = true := by
    rw [trimChars_of_identifier hname, List.isEmpty_iff]
    exact Draft.ne_nil_of_isIdentifier hname
  unfold Core.operatorName
  simp only
  rw [if_neg hfull, Text.trim, trimChars_of_identifier hname, String.ofList_toList]

/-- A value that is no array is refused before anything is called. -/
theorem body_eq (form : Elementwise) {name : String} {args : Arguments}
    (hname : Core.operatorName (.text name :: args) = .ok name) (input : Value) :
    (form.body input (.text name :: args) : Action σ) =
      match input with
      | .array items => form.ask name args [] items
      | other => .finish (Attempt.refuseType "array" other) := by
  cases form with
  | map =>
    show Core.andThen _ _ = _
    rw [hname]
    cases input <;> rfl
  | filter =>
    show Core.andThen _ _ = _
    rw [hname]
    cases input <;> rfl

/-- What comes of the core operator on some pools, once it was found. -/
def asked (form : Elementwise) (host : Host σ) (json : Json.Reader) (pools : PoolStore)
    (name : String) (arguments : List Argument) (input : Value) (s : σ) :
    Attempt Value × Trail σ :=
  (form.body input (.text name :: arguments.map (·.valueIn json pools))).run (some pools)
    (host.caller pools 0) { state := s }

/-- A node that is a lens comes to what the core operator asks for. -/
theorem gist_lens {ctx : RunContext σ} (hretries : ctx.config.operatorRetries = 0)
    {form : Elementwise} {name : String} {arguments : List Argument} {node : Node}
    (hnode : form.IsLens name arguments node.toSegment) (r : Run σ)
    (hname : Core.operatorName (.text name :: arguments.map (·.valueIn ctx.json r.pools)) =
      .ok name)
    (notify : String → Value → Exec σ Unit) (packet : Packet) (seed : Option Value) :
    let asked := Attempt.gist r.pools
      (form.asked ctx.host ctx.json r.pools name arguments packet.value r.state)
    Step.gist ((Step.runNode ctx notify node packet seed).outcome r) =
      (asked.1.map (Except.map fun value => .next { packet with value }), asked.2) := by
  intro asked
  obtain ⟨raw, hkind⟩ := hnode
  have hrun : Step.runNode ctx notify node packet seed =
      Step.expectItems node packet.value >>= fun items => (do
        let vs ← form.each ctx node [.call name arguments] items
        return Value.array (([] : List Value).reverse ++ vs)) >>= fun value =>
          pure (.next { packet with value }) := by
    unfold Step.runNode
    rw [hkind]
    cases form <;> simp [Step.applyLens, lens, each]
  rw [hrun, ← bind_assoc, Step.gist_map]
  have hitems : Step.gist ((Step.expectItems node packet.value >>= fun items => (do
      let vs ← form.each ctx node [.call name arguments] items
      return Value.array (([] : List Value).reverse ++ vs))).outcome r) = asked := by
    show _ = Attempt.gist r.pools (Action.run _ _ _ _)
    rw [body_eq form hname]
    cases packet.value with
    | array items => exact (gist_each hretries form node name arguments items [] r _ rfl).symm
    | null | bool _ | number _ | text _ | object _ => rfl
  rw [hitems]

theorem operator?_name (form : Elementwise) :
    (Core.library : Library σ).operator? form.lens.name = some form.operator := by
  cases form <;> rfl

theorem not_declared (form : Elementwise) (library : String) :
    form.lens.name ∉ Domain.declared library := by
  apply Domain.not_declared
  cases form <;> decide

/-- A node that is an operator resolves it, does what it asks for, and records the outcome. -/
theorem gist_operator {tiers : Tiers τ} {ctx : RunContext (Session.Observed τ)}
    (hhost : ctx.host = Session.observed tiers) (hretries : ctx.config.operatorRetries = 0)
    {form : Elementwise} {name : String} {arguments : List Argument} {node : Node}
    {r : Run (Session.Observed τ)}
    (hnode : form.IsOperator ctx.json r.pools name arguments node.toSegment)
    (notify : String → Value → Exec (Session.Observed τ) Unit) (packet : Packet)
    (seed : Option Value) :
    let out := form.asked (Session.observed tiers) ctx.json r.pools name arguments packet.value
      (r.state.noting (.resolved form.lens.name (.ofInput packet.value 0)))
    let told := Attempt.gist r.pools (out.1, { out.2 with
      state := out.2.state.noting (.recorded form.lens.name .core out.1.isOk) })
    Step.gist ((Step.runNode ctx notify node packet seed).outcome r) =
      (told.1.map (Except.map fun value => .next { packet with value }), told.2) := by
  intro out told
  obtain ⟨hkind, hnamed, first, hfirst, harguments⟩ := hnode
  have hrun : Step.runNode ctx notify node packet seed =
      Step.evalArguments ctx node node.arguments >>= fun args =>
        Step.invoke ctx node form.lens.name 0 packet.value args >>= fun value =>
          pure (.next { packet with value }) := by
    unfold Step.runNode Step.runOperator
    rw [hkind, hnamed]
    cases form <;> simp [lens, Lens.name]
  obtain ⟨r', hpools, hstate, hcalled⟩ :=
    Step.gist_bind_ok (Step.gist_evalArguments ctx node node.arguments r) fun args =>
      Step.invoke ctx node form.lens.name 0 packet.value args >>= fun value =>
        pure (Flow.next { packet with value })
  have hargs : node.arguments.map (·.valueIn ctx.json r.pools) =
      .text name :: arguments.map (·.valueIn ctx.json r.pools) := by
    rw [harguments, List.map_cons, hfirst]
  have hinvoked : form.operator.invoke (some r.pools)
      ((Session.observed tiers).caller r.pools 0) packet.value
      (.text name :: arguments.map (·.valueIn ctx.json r.pools))
      (r.state.noting (.resolved form.lens.name (.ofInput packet.value 0))) = out := by
    unfold Operator.invoke
    rw [if_pos (by simp [operator, Arity.admits, Arity.atLeast])]
    rfl
  have htier : (form.operator : Operator (Session.Observed τ)).tier = .core := rfl
  rw [hrun, hcalled, Step.gist_map, Step.outcome_invoke, hretries, hhost,
    Session.observed_resolve_core form.operator?_name form.not_declared]
  simp only
  rw [Step.gist_attemptUpTo_zero, hhost, hargs]
  simp only
  rw [hpools, hstate, hinvoked, htier, Session.observed_record_core]

theorem asksOnly_body {acts : (σ → Attempt Value × σ) → Prop} (form : Elementwise)
    (input : Value) (args : Arguments) :
    (form.body input args : Action σ).AsksOnly (Core.Calls form.lens.name args) acts := by
  cases form with
  | map => exact Core.asksOnly_mapWith input args
  | filter => exact Core.asksOnly_filterWith input args

/-- What comes of the core operator does not depend on what is in the log already. -/
theorem asked_following (tiers : Tiers τ) (form : Elementwise) (json : Json.Reader)
    (pools : PoolStore) (name : String) (arguments : List Argument) (input : Value)
    (front : List HostCall) (s : Session.Observed τ) :
    let out := form.asked (Session.observed tiers) json pools name arguments input s
    let out' := form.asked (Session.observed tiers) json pools name arguments input
      (s.following front)
    out'.1 = out.1 ∧
      ((∀ h, out.1 ≠ .error (.halt h)) → out'.2.state = out.2.state.following front) :=
  Session.run_following (form.asksOnly_body input _) pools Host.nestingAllowance 0 front s

/-- A lens whose body calls an operator, and the core operator that is given its name, come to
the same without retries: the same packet, or a failure of the same cause. Unless there was a
halt they leave the same registry and the same world, and what the host was asked meanwhile is
the same, apart from resolving and recording the core operator itself. -/
theorem lens_agrees_with_operator {tiers : Tiers τ} {ctx : RunContext (Session.Observed τ)}
    (hhost : ctx.host = Session.observed tiers) (hretries : ctx.config.operatorRetries = 0)
    {form : Elementwise} {name : String} {arguments : List Argument} {lens operator : Node}
    {r : Run (Session.Observed τ)} (hname : Segment.isIdentifier name.toList = true)
    (hlens : form.IsLens name arguments lens.toSegment)
    (hoperator : form.IsOperator ctx.json r.pools name arguments operator.toSegment)
    (notify : String → Value → Exec (Session.Observed τ) Unit) (packet : Packet)
    (seed : Option Value) :
    let lensed := (Step.runNode ctx notify lens packet seed).outcome r
    let called := (Step.runNode ctx notify operator packet seed).outcome r
    lensed.1.map (Except.mapError Failure.cause) = called.1.map (Except.mapError Failure.cause) ∧
      ∀ ended, lensed.1 = .ok ended →
        lensed.2.state.registry = called.2.state.registry ∧
        lensed.2.state.own.1 = called.2.state.own.1 ∧
        ∃ calls, lensed.2.state.own.2 = r.state.own.2 ++ calls ∧
          called.2.state.own.2 =
            r.state.own.2 ++ .resolved form.lens.name (.ofInput packet.value 0) ::
              (calls ++ [.recorded form.lens.name .core ended.isOk]) := by
  intro lensed called
  let asked := form.asked (Session.observed tiers) ctx.json r.pools name arguments packet.value
  let start := r.state.unlogged
  let found := HostCall.resolved form.lens.name (.ofInput packet.value 0)
  have hlensed : Step.gist lensed = _ :=
    gist_lens hretries hlens r (operatorName_of_identifier hname _) notify packet seed
  have hcalled : Step.gist called = _ :=
    gist_operator hhost hretries hoperator notify packet seed
  rw [hhost] at hlensed
  -- Both start from the session as it is with an empty log, behind what is in theirs.
  obtain ⟨hresult, hstate⟩ : (asked r.state).1 = (asked start).1 ∧ (_ →
      (asked r.state).2.state = (asked start).2.state.following r.state.own.2) := by
    have hbehind := asked_following tiers form ctx.json r.pools name arguments
      packet.value r.state.own.2 start
    rwa [Session.following_own] at hbehind
  obtain ⟨hresult', hstate'⟩ : (asked (r.state.noting found)).1 = (asked start).1 ∧ (_ →
      (asked (r.state.noting found)).2.state =
        (asked start).2.state.following (r.state.own.2 ++ [found])) := by
    have hbehind := asked_following tiers form ctx.json r.pools name arguments
      packet.value (r.state.own.2 ++ [found]) start
    rwa [Session.following_noting] at hbehind
  have hlens₁ : lensed.1.map (Except.mapError Failure.cause) =
      (Attempt.meaning (asked start).1).map
        (Except.map fun value => .next { packet with value }) := by
    rw [← hresult]
    exact congrArg Prod.fst hlensed
  have hcall₁ : called.1.map (Except.mapError Failure.cause) =
      (Attempt.meaning (asked start).1).map
        (Except.map fun value => .next { packet with value }) := by
    rw [← hresult']
    exact congrArg Prod.fst hcalled
  refine ⟨hlens₁.trans hcall₁.symm, ?_⟩
  intro ended hended
  have hlens₂ : lensed.2.state = (asked r.state).2.state := congrArg (·.2.2) hlensed
  have hcall₂ : called.2.state = (asked (r.state.noting found)).2.state.noting
      (.recorded form.lens.name .core (asked (r.state.noting found)).1.isOk) :=
    congrArg (·.2.2) hcalled
  rw [hended] at hlens₁
  obtain ⟨hreturns, hok⟩ := Attempt.isOk_of_meaning hlens₁.symm
  rw [hlens₂, hstate hreturns, hcall₂, hresult', hstate' hreturns, hok]
  refine ⟨rfl, rfl, (asked start).2.state.own.2, rfl, ?_⟩
  show (r.state.own.2 ++ [found] ++ (asked start).2.state.own.2) ++ [_] = _
  rw [List.append_assoc, List.append_assoc]
  rfl

theorem lens_agrees_with_operator_tripping :
    let config : Config := { breaker := { threshold := 1 } }
    let ctx : RunContext (Session.Observed Unit) :=
      Engine.context { host := Session.observed {}, config } (.parse "")
    let place (segment : Segment) : Node :=
      { segment with id := 1, line := 1, terminal := false, pipeline := 0, scope := none }
    let lens := place ⟨.lens .map ⟨"parse_query()", [.call "parse_query" []]⟩, "map", [],
      "map \x7bparse_query()\x7d"⟩
    let operator := place ⟨.operator, "map", [.given (.text "parse_query")], "map(parse_query)"⟩
    let r : Run (Session.Observed Unit) :=
      { state := .ofConfig config ((), []), pools := .ofCapacity 1 }
    let run (node : Node) := (Step.runNode ctx (fun _ _ => pure ()) node
      { value := .array [.text "", .null] } none).outcome r
    let asked : List HostCall :=
      [.resolved "parse_query" ⟨0, 1⟩, .recorded "parse_query" .domain true,
        .resolved "parse_query" ⟨1, 1⟩, .recorded "parse_query" .domain false]
    (ctx.host = Session.observed {} ∧ ctx.config.operatorRetries = 0 ∧
      Segment.isIdentifier "parse_query".toList = true ∧
      map.IsLens "parse_query" [] lens.toSegment ∧
      map.IsOperator ctx.json r.pools "parse_query" [] operator.toSegment) ∧
    (run lens).1 = .ok (.error ⟨.typeMismatch "text" "null", .atNode lens "parse_query"⟩) ∧
    (run operator).1.map (Except.mapError Failure.cause) =
      .ok (.error (.typeMismatch "text" "null")) ∧
    (run operator).2.state.registry.breaker.tripped = [⟨"parse_query", .domain⟩] ∧
    (run operator).2.state.own.2 =
      .resolved "map" ⟨2, 0⟩ :: (asked ++ [.recorded "map" .core false]) := by
  intro config ctx place lens operator r run asked
  have hhost : ctx.host = Session.observed {} := rfl
  have hretries : ctx.config.operatorRetries = 0 := rfl
  have hlens : map.IsLens "parse_query" [] lens.toSegment := ⟨_, rfl⟩
  have hoperator : map.IsOperator ctx.json r.pools "parse_query" [] operator.toSegment :=
    ⟨rfl, rfl, .given (.text "parse_query"), rfl, rfl⟩
  have hname : Segment.isIdentifier "parse_query".toList = true := by decide
  obtain ⟨hsame, hstates⟩ := lens_agrees_with_operator hhost hretries hname hlens hoperator
    (fun _ _ => pure ()) { value := .array [.text "", .null] } none
  have hfailed : (run lens).1 =
      .ok (.error ⟨.typeMismatch "text" "null", .atNode lens "parse_query"⟩) := rfl
  have htripped : (run lens).2.state.registry.breaker.tripped = [⟨"parse_query", .domain⟩] := rfl
  have hasked : (run lens).2.state.own.2 = asked := rfl
  obtain ⟨hregistry, -, calls, hown, hown'⟩ := hstates _ hfailed
  refine ⟨⟨hhost, hretries, hname, hlens, hoperator⟩, hfailed, ?_, ?_, ?_⟩
  · rw [← hsame]
    exact congrArg (Except.map (Except.mapError Failure.cause)) hfailed
  · rw [← hregistry]
    exact htripped
  · obtain rfl : asked = calls := hasked.symm.trans hown
    exact hown'

end Elementwise

end Sluice
