/-
  Sluice.Proofs.Run.Tandem

  Two runs side by side. A pairing says how their states are related as long as both go on and
  how after a halt, and from which states of the first run's host on nothing is said any more.
  Parts of two runs go in tandem if they take related states to the same result in related states.

  What a run can do to its state is said once more, for pairs of states: it takes notes, which
  concern neither pools nor host, and besides it reads pools, invokes operators and writes pools.
  `Pairing.Lasting` lists these moves. It does so for the pools that are read and written and for
  the operators that are called, so that a pairing which looks at some pools only can be kept by
  walks that stay where nothing else is touched. A `Territory` is a set of nodes where they do.
-/

import Sluice.Proofs.Host.Follows
import Sluice.Proofs.Run.Keeping

namespace Sluice

variable {σ τ α β : Type}

-- ============================================================================
-- Pairings
-- ============================================================================

/-- What two runs have to do with each other. -/
structure Pairing (σ τ : Type) where
  /-- How their states are related as long as both go on. -/
  related : Run σ → Run τ → Prop
  /-- How their states are related after a halt of both. -/
  halted : Run σ → Run τ → Prop
  /-- States of the first run's host from which on nothing is said any more. -/
  lost : σ → Prop

/-- Outcomes of two runs that meet: with the same result or the same halt. Nothing is said of the
second where the first was lost on its way and, if it came to a result, still is. -/
inductive Pairing.Meets (p : Pairing σ τ) :
    Except Halt α × Run σ → Except Halt α × Run τ → Prop
  | ok (a : α) {r : Run σ} {r' : Run τ} (h : p.related r r') : p.Meets (.ok a, r) (.ok a, r')
  | halt (h : Halt) {r : Run σ} {r' : Run τ} (hr : p.halted r r') :
    p.Meets (.error h, r) (.error h, r')
  | lost {out : Except Halt α × Run σ} {out' : Except Halt α × Run τ} (hlost : ∃ s, p.lost s)
    (h : ∀ a r, out = (.ok a, r) → p.lost r.state) : p.Meets out out'

namespace Exec

/-- Parts of two runs that keep a pairing: from related states they come to outcomes that meet,
and the first does not come back from where it is lost. -/
structure Tandem (p : Pairing σ τ) (m : Exec σ α) (m' : Exec τ α) : Prop where
  persists : m.Keeps (fun _ => True) (fun r => p.lost r.state)
  meets : ∀ r r', p.related r r' → p.Meets (m.outcome r) (m'.outcome r')

variable {p : Pairing σ τ}

/-- From a state that is lost a part comes to an outcome that meets any other. -/
theorem Tandem.meets_of_lost {m : Exec σ α} {m' : Exec τ α} (h : Tandem p m m') {r : Run σ}
    (hr : p.lost r.state) (out' : Except Halt α × Run τ) : p.Meets (m.outcome r) out' := by
  refine .lost ⟨_, hr⟩ fun a r' hout => ?_
  have hkept := h.persists r hr
  rw [hout] at hkept
  exact hkept

/-- Where nothing is ever lost the second part comes to the result of the first. -/
theorem Tandem.of_ok {m : Exec σ α} {m' : Exec τ α} (h : Tandem p m m')
    (hnever : ∀ s, ¬ p.lost s) {r : Run σ} {r' : Run τ} (hr : p.related r r') {a : α} {t : Run σ}
    (hout : m.outcome r = (.ok a, t)) : ∃ t', m'.outcome r' = (.ok a, t') ∧ p.related t t' := by
  have hmeets := h.meets r r' hr
  rw [hout] at hmeets
  generalize m'.outcome r' = out' at hmeets ⊢
  cases hmeets with
  | ok _ ht => exact ⟨_, rfl, ht⟩
  | lost hlost => exact hlost.elim fun s hs => absurd hs (hnever s)

theorem tandem_pure (a : α) : Tandem p (pure a : Exec σ α) (pure a : Exec τ α) :=
  ⟨keeps_pure a, fun _ _ hr => .ok a hr⟩

theorem tandem_bind {m : Exec σ α} {m' : Exec τ α} {f : α → Exec σ β} {f' : α → Exec τ β}
    (hm : Tandem p m m') (hf : ∀ a, Tandem p (f a) (f' a)) : Tandem p (m >>= f) (m' >>= f') := by
  refine ⟨keeps_bind hm.persists fun a => (hf a).persists, fun r r' hr => ?_⟩
  have h := hm.meets r r' hr
  rw [outcome_bind, outcome_bind]
  generalize m.outcome r = out at h ⊢
  generalize m'.outcome r' = out' at h ⊢
  cases h with
  | ok a h => exact (hf a).meets _ _ h
  | halt halt h => exact .halt halt h
  | lost hlost h =>
    -- What follows on a result in a lost state is lost, whatever the second run does.
    match out with
    | (.error halt, r₁) => exact .lost hlost fun b r₂ hb => by cases hb
    | (.ok a, r₁) => exact (hf a).meets_of_lost (h a r₁ rfl) _

theorem tandem_ite {c : Prop} [Decidable c] {m n : Exec σ α} {m' n' : Exec τ α}
    (hm : Tandem p m m') (hn : Tandem p n n') :
    Tandem p (if c then m else n) (if c then m' else n') := by
  split
  · exact hm
  · exact hn

theorem tandem_forM {f : α → Exec σ Unit} {f' : α → Exec τ Unit} (as : List α)
    (hf : ∀ a ∈ as, Tandem p (f a) (f' a)) : Tandem p (as.forM f) (as.forM f') := by
  induction as with
  | nil => exact tandem_pure ()
  | cons a rest ih =>
    refine tandem_bind (hf a List.mem_cons_self) fun _ => ih fun b hb => ?_
    exact hf b (List.mem_cons_of_mem a hb)

end Exec

namespace Step

/-- Parts of the runs of two pipelines that keep a pairing. -/
def Tandem (p : Pairing σ τ) (m : Step σ α) (m' : Step τ α) : Prop :=
  Exec.Tandem p (m.run : Exec σ (Except Failure α)) (m'.run : Exec τ (Except Failure α))

variable {p : Pairing σ τ}

theorem tandem_pure (a : α) : Tandem p (pure a : Step σ α) (pure a : Step τ α) :=
  Exec.tandem_pure _

theorem tandem_failAt (node : Node) (operator : String) (cause : Cause) :
    Tandem p (failAt node operator cause : Step σ α) (failAt node operator cause : Step τ α) :=
  Exec.tandem_pure _

/-- Where a part of a pipeline's run keeps what is lost, its outcomes need only be looked at from
related states. -/
theorem tandem_of_keeps {m : Step σ α} {m' : Step τ α}
    (hkeeps : Keeps (fun _ => True) (fun _ => True) (fun r => p.lost r.state) m)
    (hmeets : ∀ r r', p.related r r' → p.Meets (m.outcome r) (m'.outcome r')) :
    Tandem p m m' := by
  refine ⟨fun r hr => ?_, hmeets⟩
  have h := hkeeps r hr
  have hsame : Exec.outcome (m.run : Exec σ (Except Failure α)) r = m.outcome r := rfl
  rw [hsame]
  match hout : m.outcome r with
  | (.ok (.ok _), r') =>
    rw [hout] at h
    exact h
  | (.ok (.error _), r') =>
    rw [hout] at h
    exact h.1
  | (.error _, _) => trivial

/-- A part that keeps a pairing keeps what is lost. -/
theorem Tandem.keeps {m : Step σ α} {m' : Step τ α} (h : Tandem p m m') :
    Keeps (fun _ => True) (fun _ => True) (fun r => p.lost r.state) m := by
  intro r hr
  have hkept := h.persists r hr
  have hsame : Exec.outcome (m.run : Exec σ (Except Failure α)) r = m.outcome r := rfl
  rw [hsame] at hkept
  match hout : m.outcome r with
  | (.ok (.ok _), r') =>
    rw [hout] at hkept
    exact hkept
  | (.ok (.error _), r') =>
    rw [hout] at hkept
    exact ⟨hkept, trivial⟩
  | (.error _, _) => trivial

/-- What follows a part may rely on what the part returns in the first run. -/
theorem tandem_bind_of {Q : α → Prop} {m : Step σ α} {m' : Step τ α} {f : α → Step σ β}
    {f' : α → Step τ β} (hm : Tandem p m m') (hreturns : Returns Q m)
    (hf : ∀ a, Q a → Tandem p (f a) (f' a)) : Tandem p (m >>= f) (m' >>= f') := by
  refine tandem_of_keeps (keeps_bind_of hm.keeps hreturns fun a ha => (hf a ha).keeps)
    fun r r' hr => ?_
  have h : p.Meets (m.outcome r) (m'.outcome r') := hm.meets r r' hr
  rw [outcome_bind, outcome_bind]
  generalize hout : m.outcome r = out at h ⊢
  generalize m'.outcome r' = out' at h ⊢
  cases h with
  | ok result h =>
    cases result with
    | ok a => exact (hf a (hreturns r a _ hout)).meets _ _ h
    | error failure => exact .ok _ h
  | halt halt h => exact .halt halt h
  | lost hlost h =>
    match out with
    | (.error halt, r₁) => exact .lost hlost fun b r₂ hb => by cases hb
    | (.ok (.error failure), r₁) =>
      refine .lost hlost fun b r₂ hb => ?_
      cases hb
      exact h _ _ rfl
    | (.ok (.ok a), r₁) =>
      exact Exec.Tandem.meets_of_lost (hf a (hreturns r a r₁ hout)) (h _ _ rfl) _

theorem tandem_bind {m : Step σ α} {m' : Step τ α} {f : α → Step σ β} {f' : α → Step τ β}
    (hm : Tandem p m m') (hf : ∀ a, Tandem p (f a) (f' a)) : Tandem p (m >>= f) (m' >>= f') :=
  tandem_bind_of hm (fun _ _ _ _ => trivial) fun a _ => hf a

theorem tandem_mapM {f : α → Step σ β} {f' : α → Step τ β} (as : List α)
    (hf : ∀ a ∈ as, Tandem p (f a) (f' a)) : Tandem p (as.mapM f) (as.mapM f') := by
  induction as with
  | nil => exact tandem_pure []
  | cons a rest ih =>
    rw [List.mapM_cons, List.mapM_cons]
    refine tandem_bind (hf a List.mem_cons_self) fun b => ?_
    refine tandem_bind (ih fun c hc => hf c (List.mem_cons_of_mem a hc)) fun bs => ?_
    exact tandem_pure (b :: bs)

theorem tandem_foldlM {f : β → α → Step σ β} {f' : β → α → Step τ β} (as : List α)
    (hf : ∀ b, ∀ a ∈ as, Tandem p (f b a) (f' b a)) (b : β) :
    Tandem p (as.foldlM f b) (as.foldlM f' b) := by
  induction as generalizing b with
  | nil => exact tandem_pure b
  | cons a rest ih =>
    rw [List.foldlM_cons, List.foldlM_cons]
    refine tandem_bind (hf b a List.mem_cons_self) fun b' => ih (fun c d hd => ?_) b'
    exact hf c d (List.mem_cons_of_mem a hd)

theorem tandem_lift {m : Exec σ α} {m' : Exec τ α} (h : m.Tandem p m') :
    Tandem p (ExceptT.lift m : Step σ α) (ExceptT.lift m' : Step τ α) := by
  show Exec.Tandem p ((Except.ok : α → Except Failure α) <$> m : Exec σ _)
    ((Except.ok : α → Except Failure α) <$> m' : Exec τ _)
  rw [map_eq_pure_bind, map_eq_pure_bind]
  exact Exec.tandem_bind h fun a => Exec.tandem_pure _

end Step

-- ============================================================================
-- The moves of two runs
-- ============================================================================

/-- What a run takes down, with no look at its pools or its host. -/
inductive Note where
  | warned (message : String)
  | retried
  | printed (pipeline : PipelineId) (text : String)
  | rendered (pipeline : PipelineId) (value : Value)
  | stepped
  | started (pipeline : PipelineId) (root : NodeId)
  | completed (pipeline : PipelineId) (value : Value)
  | failed (pipeline : PipelineId) (failure : Failure)
  | notified
  | activated (pipeline : PipelineId) (literal : String)

/-- Take a note. -/
def Run.note (r : Run σ) : Note → Run σ
  | .warned message => r.warn message
  | .retried => r.count fun m => { m with retries := m.retries + 1 }
  | .printed pipeline text => r.printed pipeline text
  | .rendered pipeline value => r.emit (.rendered pipeline value)
  | .stepped => r.stepped
  | .started pipeline root => r.started pipeline root
  | .completed pipeline value => r.emit (.completed pipeline value)
  | .failed pipeline failure => r.fail pipeline failure
  | .notified => r.notified
  | .activated pipeline literal => r.activated pipeline literal

@[simp] theorem Run.state_note (r : Run σ) (n : Note) : (r.note n).state = r.state := by
  cases n <;> rfl

@[simp] theorem Run.pools_note (r : Run σ) (n : Note) : (r.note n).pools = r.pools := by
  cases n <;> rfl

namespace LensStep

/-- The arguments that a step evaluates. -/
def evaluated : LensStep → List Argument
  | compare _ _ operand => [operand]
  | call _ arguments => arguments
  | field _ | sum => []

/-- The operators that a step calls. -/
def called : LensStep → List String
  | call name _ => [name]
  | field _ | compare .. | sum => []

end LensStep

namespace Node

/-- The arguments that a node evaluates when it runs. -/
def evaluated (node : Node) : List Argument :=
  match node.kind with
  | .operator => node.arguments
  | .lens _ body => body.steps.flatMap LensStep.evaluated
  | _ => []

/-- The operators that a node calls when it runs. -/
def called (node : Node) : List String :=
  match node.kind with
  | .operator => [node.name]
  | .lens _ body => body.steps.flatMap LensStep.called
  | _ => []

end Node

/-- Contexts that know the same of their program, but for where a run starts. -/
structure RunContext.SameCourse (ctx : RunContext σ) (ctx' : RunContext τ) : Prop where
  config : ctx'.config = ctx.config
  json : ctx'.json = ctx.json
  program : ctx'.program = ctx.program
  next? : ∀ id packet, ctx'.plan.next? id packet = ctx.plan.next? id packet
  join? : ∀ id, ctx'.plan.join? id = ctx.plan.join? id
  subscribersOf : ∀ pool, ctx'.plan.subscribersOf pool = ctx.plan.subscribersOf pool

theorem RunContext.SameCourse.refl (ctx : RunContext σ) : ctx.SameCourse ctx :=
  ⟨rfl, rfl, rfl, fun _ _ => rfl, fun _ => rfl, fun _ => rfl⟩

/-- The state after an attempt, but for the host. -/
def Run.tried (line : Nat) (name : String) (calls : Nat) (warnings : List String) (r : Run σ) :
    Run σ :=
  { r with
    metrics := r.metrics.countOperator name calls
    warnings := r.warnings ++ (warnings.map fun w => s!"line {line}: {w}").toArray }

namespace Pairing

/-- A pairing survives what is noted and what is done with hosts. Operators see pools that agree
and states of their hosts that are related. -/
structure Hosting (p : Pairing σ τ) (agree : PoolStore → PoolStore → Prop)
    (S : Nat → σ → τ → Prop) : Prop where
  note : ∀ {r r'} (n : Note), p.related r r' → p.related (r.note n) (r'.note n)
  stopped : ∀ {r r'}, p.related r r' → r'.stopped = r.stopped
  pools : ∀ {r r'}, p.related r r' → agree r.pools r'.pools
  state : ∀ {r r'}, p.related r r' → S r.metrics.operatorCalls r.state r'.state
  moved : ∀ {r r' s s'}, p.related r r' → S r.metrics.operatorCalls s s' →
    p.related { r with state := s } { r' with state := s' }
  tried : ∀ {r r' s s'} (line : Nat) (name : String) (calls : Nat) (warnings : List String),
    p.related r r' → S (r.metrics.operatorCalls + calls) s s' →
    p.related { r.tried line name calls warnings with state := s }
      { r'.tried line name calls warnings with state := s' }
  halted : ∀ {r r' s s'} (line : Nat) (name : String) (calls : Nat) (warnings : List String),
    p.related r r' → p.halted { r.tried line name calls warnings with state := s }
      { r'.tried line name calls warnings with state := s' }

/-- A pairing survives reading some pools and writing some. -/
structure Storing (p : Pairing σ τ) (reads writes : String → Prop) : Prop where
  value? : ∀ {r r' pool}, reads pool → p.related r r' → r'.pools.value? pool = r.pools.value? pool
  contains : ∀ {r r' pool}, writes pool → p.related r r' →
    r'.pools.contains pool = r.pools.contains pool
  make : ∀ {r r' pool pools}, writes pool → p.related r r' → r.pools.ensure pool = .ok pools →
    ∃ pools', r'.pools.ensure pool = .ok pools' ∧
      p.related { r with pools } { r' with pools := pools' }
  full : ∀ {r r' pool h}, writes pool → p.related r r' → r.pools.ensure pool = .error h →
    r'.pools.ensure pool = .error h ∧ p.halted r r'
  write : ∀ {r r' pool} (value : Value), writes pool → p.related r r' →
    r.pools.contains pool = true → p.related (r.written pool value) (r'.written pool value)

/-- A pairing survives whatever two runs do that read and write some pools and call some
operators. -/
structure Lasting (p : Pairing σ τ) (agree : PoolStore → PoolStore → Prop)
    (S : Nat → σ → τ → Prop) (ctx : RunContext σ) (ctx' : RunContext τ)
    (reads writes calls : String → Prop) : Prop extends p.Hosting agree S,
    p.Storing reads writes where
  same : ctx.SameCourse ctx'
  follows : ctx.host.Follows calls (Operator.Follows agree S p.lost ctx.host ctx'.host) S p.lost
    ctx'.host

end Pairing

/-- A set of nodes that neither a walk nor a notification leaves, with the pools that are read and
written there and the operators that are called. -/
structure RunContext.Territory (ctx : RunContext σ) (nodes : NodeId → Prop)
    (reads writes calls : String → Prop) : Prop extends ctx.Closed nodes where
  evaluated : ∀ {id node argument pool}, nodes id → ctx.program.node? id = some node →
    argument ∈ node.evaluated → argument.poolReference? = some pool → reads pool
  accessed : ∀ {id node pool}, nodes id → ctx.program.node? id = some node →
    node.kind = .poolAccess pool → reads pool
  called : ∀ {id node name}, nodes id → ctx.program.node? id = some node →
    name ∈ node.called → calls name
  written : ∀ {id node pool}, nodes id → ctx.program.node? id = some node →
    node.kind = .poolWrite pool → writes pool
  notified : ∀ {id node pool s}, nodes id → ctx.program.node? id = some node →
    node.kind = .poolWrite pool → s ∈ ctx.plan.subscribersOf pool → nodes s.root

/-- Everywhere anything may be touched. -/
theorem RunContext.territory_univ (ctx : RunContext σ) :
    ctx.Territory (fun _ => True) (fun _ => True) (fun _ => True) (fun _ => True) where
  toClosed := RunContext.closed_univ
  evaluated _ _ _ _ := trivial
  accessed _ _ _ := trivial
  called _ _ _ := trivial
  written _ _ _ := trivial
  notified _ _ _ _ := trivial

/-- A host that stays in a set of states keeps a run's state in it. -/
theorem lasting_state {ctx : RunContext σ} {P : σ → Prop} (hhost : ctx.host.Steady P) :
    Lasting ctx (Operator.StaysIn P) (fun _ => True) (fun _ => True)
      (fun r : Run σ => P r.state) where
  refusal _ := trivial
  warn _ hr := hr
  retry hr := hr
  resolve name profile hr := hhost.resolve name profile _ hr
  found name profile op hr h := hhost.found name profile _ op hr h
  attempt {r r' node op name depth input args result} hop hr h := by
    cases h
    have hstate := hhost.invoke_state hop r.pools depth input args r.state hr
    exact ⟨fun _ => hhost.record name op.tier _ _ hstate, fun _ _ => trivial⟩
  print _ _ hr := hr
  render _ _ hr := hr
  step hr := hr
  cancelled _ _ := trivial
  exhausted := trivial
  start _ _ hr := hr
  complete _ _ hr := hr
  fail _ _ hr _ := hr
  make _ hr _ := hr
  full _ _ := trivial
  write _ hr _ := hr
  notify hr := hr
  activate _ _ hr := hr
  preload library hr := hhost.preload library _ hr

/-- A whole run stays where its host stays, up to the end at which the warnings are handed over. -/
theorem Engine.run_staysIn {engine : Engine σ} {P : σ → Prop} (hhost : engine.host.Steady P)
    {program : Program} {s : σ} (hs : P s) {finished : Finished σ}
    (hrun : engine.run program s = .ok finished) :
    ∃ t, P t ∧ finished.state = (engine.host.drainWarnings t).2 := by
  have hlasting : Lasting (engine.context program) (Operator.StaysIn P) (fun _ => True)
      (fun _ => True) (fun r : Run σ => P r.state) := lasting_state hhost
  have hexecute : ∀ root seed, (Exec.execute (engine.context program) root seed).Keeps
      (fun _ => True) (fun r : Run σ => P r.state) :=
    fun root seed => Exec.keeps_runNested hlasting trivial _ root seed
  have hends := Engine.run_ends (fun _ _ => hs) (fun _ _ => trivial) fun initial =>
    Exec.keeps_runAll hlasting.toNoting initial (fun root _ => hexecute root none)
      (fun root _ => hexecute root none) fun s _ value => hexecute s.root (some value)
  rw [hrun] at hends
  obtain ⟨r, hr, rfl⟩ := hends
  exact ⟨r.state, hr, rfl⟩

section

variable {p : Pairing σ τ} {agree : PoolStore → PoolStore → Prop} {S : Nat → σ → τ → Prop}
  {ctx : RunContext σ} {ctx' : RunContext τ} {reads writes calls : String → Prop}

theorem Exec.tandem_note (hl : p.Lasting agree S ctx ctx' reads writes calls) (n : Note) :
    Exec.Tandem p (modify fun r : Run σ => r.note n) (modify fun r : Run τ => r.note n) := by
  refine ⟨keeps_modify fun r hr => ?_, fun r r' hr => .ok _ (hl.note n hr)⟩
  rw [Run.state_note]
  exact hr

namespace Step

theorem tandem_note (hl : p.Lasting agree S ctx ctx' reads writes calls) (n : Note) :
    Tandem p (modify fun r : Run σ => r.note n) (modify fun r : Run τ => r.note n) :=
  tandem_lift (Exec.tandem_note hl n)

-- ============================================================================
-- Operators
-- ============================================================================

theorem outcome_attempt_eq (ctx : RunContext σ) (node : Node) (op : Operator σ) (name : String)
    (depth : Nat) (input : Value) (args : Arguments) (r : Run σ) :
    (attempt ctx node op name depth input args).outcome r =
      let invoked := op.invoke (some r.pools) (ctx.host.caller r.pools depth) input args r.state
      (.ok (.ok invoked.1),
        { r.tried node.line name (1 + invoked.2.nested) invoked.2.warnings with
          state := ctx.host.record name op.tier invoked.1.isOk invoked.2.state }) :=
  rfl

/-- A name is resolved once, before the first attempt. -/
theorem outcome_invoke (ctx : RunContext σ) (node : Node) (name : String) (depth : Nat)
    (input : Value) (args : Arguments) (r : Run σ) :
    (invoke ctx node name depth input args).outcome r =
      match ctx.host.resolve name (.ofInput input depth) r.state with
      | (.error _, state) =>
        (.ok (.error ⟨.unknownOperator name, .atNode node name⟩), { r with state })
      | (.ok op, state) =>
        (attemptUpTo ctx node op name depth input args ctx.config.operatorRetries).outcome
          { r with state } := by
  unfold invoke
  rw [outcome_get_bind]
  match ctx.host.resolve name (.ofInput input depth) r.state with
  | (.error _, state) => rfl
  | (.ok op, state) => rfl

/-- What follows on an attempt goes on from related states, unless it was a halt. -/
theorem tandem_attempt_bind (hl : p.Lasting agree S ctx ctx' reads writes calls)
    {op : Operator σ} {op' : Operator τ}
    (hop : op.Follows agree S p.lost ctx.host ctx'.host op') (node : Node) (name : String)
    (depth : Nat) (input : Value) (args : Arguments) {f : Attempt Value → Step σ α}
    {f' : Attempt Value → Step τ α}
    (hf : ∀ result, (∀ h, result ≠ .error (.halt h)) → Tandem p (f result) (f' result))
    (hhalt : ∀ h, f (.error (.halt h)) = halt h ∧ f' (.error (.halt h)) = halt h) :
    Tandem p (attempt ctx node op name depth input args >>= f)
      (attempt ctx' node op' name depth input args >>= f') := by
  have hsteady := hl.follows.steady
  refine tandem_of_keeps ?_ fun r r' hr => ?_
  · apply keeps_attempt_bind (lasting_state hsteady).toQuiet hop.staysIn
    · exact fun result hreturns => (hf result hreturns).keeps
    · exact fun h => (hhalt h).1
  have hmeets := hop.invoke depth input args (hl.pools hr) (hl.state hr)
  rw [outcome_bind, outcome_bind, outcome_attempt_eq, outcome_attempt_eq]
  simp only
  rw [hop.tier]
  generalize op.invoke _ _ _ _ _ = invoked at hmeets ⊢
  generalize op'.invoke _ _ _ _ _ = invoked' at hmeets ⊢
  cases hmeets with
  | same result nested warnings hstate =>
    by_cases hreturns : ∀ h, result ≠ .error (.halt h)
    · have hcalled := hstate hreturns
      rw [Nat.add_assoc] at hcalled
      rcases hl.follows.record name op.tier result.isOk hcalled with hrecord | hlost
      · exact (hf result hreturns).meets _ _ (hl.tried _ _ _ _ hr hrecord)
      · exact Exec.Tandem.meets_of_lost (hf result hreturns) hlost _
    · obtain ⟨h, hresult⟩ := not_forall.1 hreturns
      rw [not_not.1 hresult, (hhalt h).1, (hhalt h).2]
      exact .halt h (hl.halted _ _ _ _ hr)
  | lost hlost hstate =>
    obtain ⟨result, state, nested, warnings⟩ := invoked
    by_cases hreturns : ∀ h, result ≠ .error (.halt h)
    · have hrecord := hsteady.record name op.tier result.isOk _ (hstate hreturns)
      exact Exec.Tandem.meets_of_lost (hf result hreturns) hrecord _
    · obtain ⟨h, hresult⟩ := not_forall.1 hreturns
      simp only
      rw [not_not.1 hresult, (hhalt h).1]
      exact .lost hlost fun b r₂ hb => by cases hb

theorem tandem_attemptUpTo (hl : p.Lasting agree S ctx ctx' reads writes calls)
    {op : Operator σ} {op' : Operator τ}
    (hop : op.Follows agree S p.lost ctx.host ctx'.host op') (node : Node) (name : String)
    (depth : Nat) (input : Value) (args : Arguments) (retries : Nat) :
    Tandem p (attemptUpTo ctx node op name depth input args retries)
      (attemptUpTo ctx' node op' name depth input args retries) := by
  induction retries with
  | zero =>
    refine tandem_attempt_bind hl hop node name depth input args (fun result hreturns => ?_)
      fun h => ⟨rfl, rfl⟩
    match result with
    | .ok v => exact tandem_pure v
    | .error (.error e) => exact tandem_failAt node name _
    | .error (.halt h) => exact absurd rfl (hreturns h)
  | succ retries ih =>
    refine tandem_attempt_bind hl hop node name depth input args (fun result hreturns => ?_)
      fun h => ⟨rfl, rfl⟩
    match result with
    | .ok v => exact tandem_pure v
    | .error (.error e) => exact tandem_bind (tandem_note hl .retried) fun _ => ih
    | .error (.halt h) => exact absurd rfl (hreturns h)

theorem tandem_invoke (hl : p.Lasting agree S ctx ctx' reads writes calls) {name : String}
    (hname : calls name) (node : Node) (depth : Nat) (input : Value) (args : Arguments) :
    Tandem p (invoke ctx node name depth input args) (invoke ctx' node name depth input args) := by
  refine tandem_of_keeps
    (keeps_invoke (lasting_state hl.follows.steady).toQuiet node name depth input args)
    fun r r' hr => ?_
  have hfinds := hl.follows.resolve (.ofInput input depth) hname (hl.state hr)
  rw [outcome_invoke, outcome_invoke, hl.same.config]
  generalize ctx.host.resolve name (.ofInput input depth) r.state = found at hfinds ⊢
  generalize ctx'.host.resolve name (.ofInput input depth) r'.state = found' at hfinds ⊢
  cases hfinds with
  | found hop hs =>
    exact (tandem_attemptUpTo hl hop node name depth input args _).meets _ _ (hl.moved hr hs)
  | missing e hs => exact .ok _ (hl.moved hr hs)

-- ============================================================================
-- Arguments and lenses
-- ============================================================================

theorem tandem_evalArgument (hl : p.Lasting agree S ctx ctx' reads writes calls) (node : Node)
    {argument : Argument} (hreads : ∀ pool, argument.poolReference? = some pool → reads pool) :
    Tandem p (evalArgument ctx node argument) (evalArgument ctx' node argument) := by
  refine tandem_of_keeps
    (keeps_evalArgument (lasting_state hl.follows.steady).toQuiet node argument) fun r r' hr => ?_
  unfold evalArgument
  cases argument with
  | given v => exact .ok _ hr
  | source text =>
    simp only
    cases hpool : (Argument.source text).poolReference? with
    | none =>
      simp only [hl.same.json]
      exact .ok _ hr
    | some pool =>
      simp only
      rw [outcome_get_bind, outcome_get_bind, hl.value? (hreads pool hpool) hr]
      cases r.pools.value? pool with
      | some v => exact .ok _ hr
      | none => exact .ok _ (hl.note (.warned _) hr)

theorem tandem_evalArguments (hl : p.Lasting agree S ctx ctx' reads writes calls) (node : Node)
    {arguments : List Argument}
    (hreads : ∀ a ∈ arguments, ∀ pool, a.poolReference? = some pool → reads pool) :
    Tandem p (evalArguments ctx node arguments) (evalArguments ctx' node arguments) :=
  tandem_mapM arguments fun a ha => tandem_evalArgument hl node (hreads a ha)

theorem tandem_expectItems (node : Node) (v : Value) :
    Tandem p (expectItems node v) (expectItems node v) := by
  cases v <;> first | exact tandem_pure _ | exact tandem_failAt _ _ _

theorem tandem_sum (node : Node) (items : List Value) :
    Tandem p (sum node items) (sum node items) := by
  have hadd : ∀ total, Tandem p (addItems node total items) (addItems node total items) := by
    induction items with
    | nil => exact fun total => tandem_pure total
    | cons v rest ih =>
      intro total
      unfold addItems
      cases v.toNumber? with
      | some x => exact ih _
      | none => exact tandem_failAt _ _ _
  exact tandem_bind (hadd _) fun _ => tandem_pure _

/-- Steps of a lens body that evaluate and call what is allowed. -/
def AskOnly (reads calls : String → Prop) (steps : List LensStep) : Prop :=
  ∀ step ∈ steps, (∀ a ∈ step.evaluated, ∀ pool, a.poolReference? = some pool → reads pool) ∧
    ∀ name ∈ step.called, calls name

theorem tandem_evalSteps (hl : p.Lasting agree S ctx ctx' reads writes calls) (node : Node)
    {steps : List LensStep} (hsteps : AskOnly reads calls steps) (v : Value) :
    Tandem p (evalSteps ctx node steps v) (evalSteps ctx' node steps v) := by
  refine tandem_foldlM steps (fun v step hstep => ?_) v
  obtain ⟨hreads, hcalls⟩ := hsteps step hstep
  cases step with
  | field path => exact tandem_pure _
  | compare path op operand =>
    exact tandem_bind (tandem_evalArgument hl node (hreads operand List.mem_cons_self)) fun _ =>
      tandem_pure _
  | sum => cases v <;> first | exact tandem_pure _ | exact tandem_sum node _
  | call name arguments =>
    exact tandem_bind (tandem_evalArguments hl node hreads) fun args =>
      tandem_invoke hl (hcalls name List.mem_cons_self) node 1 v args

theorem tandem_keepItems (hl : p.Lasting agree S ctx ctx' reads writes calls) (node : Node)
    {steps : List LensStep} (hsteps : AskOnly reads calls steps) (items : List Value) :
    Tandem p (keepItems ctx node steps items) (keepItems ctx' node steps items) := by
  induction items with
  | nil => exact tandem_pure []
  | cons v rest ih =>
    exact tandem_bind (tandem_evalSteps hl node hsteps v) fun _ =>
      tandem_bind ih fun _ => tandem_pure _

theorem tandem_applyLens (hl : p.Lasting agree S ctx ctx' reads writes calls) (node : Node)
    (lens : Lens) {body : LensBody} (hsteps : AskOnly reads calls body.steps) (packet : Packet) :
    Tandem p (applyLens ctx node lens body packet) (applyLens ctx' node lens body packet) := by
  have hchain : AskOnly reads calls body.stepsWithoutSum := by
    intro step hstep
    refine hsteps step ?_
    unfold LensBody.stepsWithoutSum at hstep
    split at hstep
    · exact List.dropLast_subset _ hstep
    · exact hstep
  cases lens with
  | map =>
    refine tandem_bind (tandem_expectItems node packet.value) fun items => ?_
    exact tandem_bind (tandem_mapM items fun v _ => tandem_evalSteps hl node hsteps v) fun _ =>
      tandem_pure _
  | filter =>
    refine tandem_bind (tandem_expectItems node packet.value) fun items => ?_
    exact tandem_bind (tandem_keepItems hl node hsteps items) fun _ => tandem_pure _
  | split =>
    exact tandem_bind (tandem_evalSteps hl node hsteps packet.value) fun _ => tandem_pure _
  | reduce =>
    refine tandem_bind (tandem_expectItems node packet.value) fun items => ?_
    split
    · exact tandem_bind (tandem_sum node items) fun _ => tandem_pure _
    · split
      · refine tandem_bind (tandem_mapM items fun v _ => tandem_evalSteps hl node hchain v)
          fun mapped => ?_
        exact tandem_bind (tandem_sum node mapped) fun _ => tandem_pure _
      · exact tandem_bind (tandem_note hl (.warned _)) fun _ => tandem_pure _

-- ============================================================================
-- Walks
-- ============================================================================

theorem tandem_runOperator (hl : p.Lasting agree S ctx ctx' reads writes calls) (node : Node)
    (hreads : ∀ a ∈ node.arguments, ∀ pool, a.poolReference? = some pool → reads pool)
    (hname : calls node.name) (packet : Packet) :
    Tandem p (runOperator ctx node packet) (runOperator ctx' node packet) := by
  refine tandem_bind (tandem_evalArguments hl node hreads) fun args => ?_
  refine tandem_bind (tandem_invoke hl hname node 0 packet.value args) fun value => ?_
  split
  · exact tandem_bind (tandem_note hl (.printed node.pipeline (printedText value args))) fun _ =>
      tandem_pure _
  · split
    · exact tandem_bind (tandem_note hl (.rendered node.pipeline value)) fun _ => tandem_pure _
    · exact tandem_pure _

/-- A write to a pool that both runs may write makes it in both or in none. -/
theorem tandem_writePool (hl : p.Lasting agree S ctx ctx' reads writes calls)
    {notify : String → Value → Exec σ Unit} {notify' : String → Value → Exec τ Unit}
    {pool : String} (hpool : writes pool) {value : Value}
    (hnotify : (notify pool value).Tandem p (notify' pool value)) (node : Node) :
    Tandem p (writePool notify node pool value) (writePool notify' node pool value) := by
  have htold : ∀ {r r'}, p.related r r' → r.pools.contains pool = true →
      p.Meets (Step.outcome (ExceptT.lift (notify pool value)) (r.written pool value))
        (Step.outcome (ExceptT.lift (notify' pool value)) (r'.written pool value)) :=
    fun hr hcontains => (tandem_lift hnotify).meets _ _ (hl.write value hpool hr hcontains)
  refine tandem_of_keeps ?_ fun r r' hr => ?_
  · exact keeps_writePool (lasting_state hl.follows.steady).toWritable hnotify.persists node
  unfold writePool
  rw [outcome_get_bind, outcome_get_bind, hl.contains hpool hr]
  match hcontains : r.pools.contains pool with
  | true => exact htold hr hcontains
  | false =>
    match hensure : r.pools.ensure pool with
    | .error h =>
      obtain ⟨hensure', hhalted⟩ := hl.full hpool hr hensure
      rw [hensure']
      exact .halt h hhalted
    | .ok pools =>
      obtain ⟨pools', hensure', hmade⟩ := hl.make hpool hr hensure
      rw [hensure']
      exact htold (hl.note (.warned _) hmade) (PoolStore.contains_of_ensure hensure)

variable {nodes : NodeId → Prop}

theorem tandem_runNode (hl : p.Lasting agree S ctx ctx' reads writes calls)
    (ht : ctx.Territory nodes reads writes calls) {notify : String → Value → Exec σ Unit}
    {notify' : String → Value → Exec τ Unit} {id : NodeId} {node : Node} (hid : nodes id)
    (hnode : ctx.program.node? id = some node)
    (hnotify : ∀ pool value, node.kind = .poolWrite pool →
      (notify pool value).Tandem p (notify' pool value))
    (packet : Packet) (seed : Option Value) :
    Tandem p (runNode ctx notify node packet seed) (runNode ctx' notify' node packet seed) := by
  have hevaluated : ∀ a ∈ node.evaluated, ∀ pool, a.poolReference? = some pool → reads pool :=
    fun a ha pool hpool => ht.evaluated hid hnode ha hpool
  have hcalled : ∀ name ∈ node.called, calls name := fun name hname => ht.called hid hnode hname
  unfold Node.evaluated at hevaluated
  unfold Node.called at hcalled
  unfold runNode
  split
  · simp only [hl.same.json]
    exact tandem_pure _
  · simp only [hl.same.json]
    exact tandem_pure _
  · next pool hkind =>
    refine tandem_of_keeps (keeps_get_bind fun _ => keeps_pure _) fun r r' hr => ?_
    rw [outcome_get_bind, outcome_get_bind, hl.value? (ht.accessed hid hnode hkind) hr]
    exact .ok _ hr
  · next hkind =>
    rw [hkind] at hevaluated hcalled
    exact tandem_bind
      (tandem_runOperator hl node hevaluated (hcalled node.name List.mem_cons_self) packet)
      fun _ => tandem_pure _
  · next lens body hkind =>
    rw [hkind] at hevaluated hcalled
    refine tandem_bind (tandem_applyLens hl node lens (fun step hstep => ⟨?_, ?_⟩) packet)
      fun _ => tandem_pure _
    · exact fun a ha => hevaluated a (List.mem_flatMap.2 ⟨step, hstep, ha⟩)
    · exact fun name hname => hcalled name (List.mem_flatMap.2 ⟨step, hstep, hname⟩)
  · split
    · exact tandem_pure _
    · rw [hl.same.join?]
      split
      · exact tandem_pure _
      · exact tandem_pure _
  · next pool hkind =>
    exact tandem_bind (tandem_writePool hl (ht.written hid hnode hkind)
      (hnotify pool packet.value hkind) node) fun _ => tandem_pure _

theorem tandem_arrive (hl : p.Lasting agree S ctx ctx' reads writes calls) (id : NodeId) :
    Tandem p (arrive ctx id) (arrive ctx' id) := by
  refine tandem_of_keeps (keeps_arrive (lasting_state hl.follows.steady).toWalkable id)
    fun r r' hr => ?_
  unfold arrive
  rw [hl.same.program]
  split
  · exact .ok _ hr
  · rw [outcome_get_bind, outcome_get_bind, hl.follows.isCancelled (hl.state hr)]
    split
    · exact .ok _ hr
    · exact .ok _ (hl.note .stepped hr)

/-- A walk over a territory keeps a pairing if notifying does, wherever the territory is written
from. The induction is on the budget. -/
theorem tandem_walk (hl : p.Lasting agree S ctx ctx' reads writes calls)
    (ht : ctx.Territory nodes reads writes calls) {notify : String → Value → Exec σ Unit}
    {notify' : String → Value → Exec τ Unit}
    (hnotify : ∀ {id node pool}, nodes id → ctx.program.node? id = some node →
      node.kind = .poolWrite pool → ∀ value, (notify pool value).Tandem p (notify' pool value))
    (budget : Nat) {id : NodeId} (hid : nodes id) (packet : Packet) (seed : Option Value) :
    Tandem p (walk ctx notify budget id packet seed) (walk ctx' notify' budget id packet seed) := by
  induction budget generalizing id packet seed with
  | zero =>
    refine tandem_bind (tandem_arrive hl id) fun arrived => ?_
    cases arrived with
    | none => exact tandem_pure _
    | some node =>
      simp only [hl.same.config]
      exact tandem_failAt _ _ _
  | succ budget ih =>
    refine tandem_bind_of (tandem_arrive hl id) (returns_arrive ctx id) fun arrived harrived => ?_
    cases arrived with
    | none => exact tandem_pure _
    | some node =>
      have hnode := harrived node rfl
      have hlawful : Returns (fun flow => Visit.Lawful ctx.plan ⟨id, node, packet, some flow⟩)
          (runNode ctx notify node packet seed) := returns_runNode
      refine tandem_bind_of (tandem_runNode hl ht hid hnode
        (fun pool value hkind => hnotify hid hnode hkind value) packet seed) hlawful
        fun flow hflow => ?_
      cases flow with
      | stop packet => exact tandem_pure _
      | jump target packet => exact ih (ht.join hid hnode hflow.join?_eq) packet none
      | next packet =>
        simp only [hl.same.next?]
        split
        · exact tandem_pure _
        · split
          · next target htarget => exact ih (ht.next hid htarget) packet none
          · exact tandem_pure _

end Step

-- ============================================================================
-- Runs of pipelines
-- ============================================================================

namespace Exec

variable {nodes : NodeId → Prop}

theorem tandem_unlessStopped (hl : p.Lasting agree S ctx ctx' reads writes calls)
    {m : Exec σ Unit} {m' : Exec τ Unit} (h : m.Tandem p m') :
    (unlessStopped m).Tandem p (unlessStopped m') := by
  refine ⟨keeps_unlessStopped h.persists, fun r r' hr => ?_⟩
  rw [outcome_unlessStopped, outcome_unlessStopped, hl.stopped hr]
  split
  · exact .ok _ hr
  · exact h.meets r r' hr

/-- A run of a pipeline is the note of its start, its walk, and the note of its end. -/
theorem tandem_runPipeline (hl : p.Lasting agree S ctx ctx' reads writes calls)
    (ht : ctx.Territory nodes reads writes calls) {notify : String → Value → Exec σ Unit}
    {notify' : String → Value → Exec τ Unit}
    (hnotify : ∀ {id node pool}, nodes id → ctx.program.node? id = some node →
      node.kind = .poolWrite pool → ∀ value, (notify pool value).Tandem p (notify' pool value))
    {root : NodeId} (hroot : nodes root) (seed : Option Value) :
    (runPipeline ctx notify root seed).Tandem p (runPipeline ctx' notify' root seed) := by
  unfold runPipeline
  simp only [hl.same.program, hl.same.config]
  refine tandem_bind (tandem_note hl (.started _ root)) fun _ => ?_
  refine tandem_bind (Step.tandem_walk hl ht hnotify _ hroot {} seed) fun result => ?_
  cases result with
  | ok value => exact tandem_note hl (.completed _ value)
  | error failure => exact tandem_note hl (.failed _ failure)

theorem tandem_notifySubscriber (hl : p.Lasting agree S ctx ctx' reads writes calls)
    {run : NodeId → Option Value → Exec σ Unit} {run' : NodeId → Option Value → Exec τ Unit}
    {value : Value} {s : Subscription}
    (hrun : (run s.root (some value)).Tandem p (run' s.root (some value))) :
    (notifySubscriber run value s).Tandem p (notifySubscriber run' value s) :=
  tandem_bind (tandem_note hl .notified) fun _ => hrun

/-- Runs over a territory keep a pairing with all levels of subscribers below them. -/
theorem tandem_runNested (hl : p.Lasting agree S ctx ctx' reads writes calls)
    (ht : ctx.Territory nodes reads writes calls) (levels : Nat) {root : NodeId}
    (hroot : nodes root) (seed : Option Value) :
    (runNested ctx levels root seed).Tandem p (runNested ctx' levels root seed) := by
  induction levels generalizing root seed with
  | zero =>
    refine tandem_runPipeline hl ht (fun hid hnode hkind value => ?_) hroot seed
    rw [hl.same.subscribersOf]
    refine tandem_forM _ fun s _ => tandem_unlessStopped hl ?_
    unfold refuseSubscriber
    rw [hl.same.config, hl.same.program]
    exact tandem_note hl (.failed s.pipeline _)
  | succ levels ih =>
    refine tandem_runPipeline hl ht (fun hid hnode hkind value => ?_) hroot seed
    rw [hl.same.subscribersOf]
    refine tandem_forM _ fun s hs => tandem_unlessStopped hl ?_
    exact tandem_notifySubscriber hl (ih (ht.notified hid hnode hkind hs) (some value))

theorem tandem_execute (hl : p.Lasting agree S ctx ctx' reads writes calls)
    (ht : ctx.Territory nodes reads writes calls) {root : NodeId} (hroot : nodes root)
    (seed : Option Value) : (execute ctx root seed).Tandem p (execute ctx' root seed) := by
  unfold execute
  rw [hl.same.config]
  exact tandem_runNested hl ht _ hroot seed

-- ============================================================================
-- Whole runs
-- ============================================================================

theorem tandem_preloadImports (hl : p.Lasting agree S ctx ctx' reads writes calls) :
    (preloadImports ctx).Tandem p (preloadImports ctx') := by
  unfold preloadImports
  rw [hl.same.program]
  refine tandem_forM _ fun i _ => ⟨keeps_modify fun r hr => ?_, fun r r' hr => ?_⟩
  · have hlost := hl.follows.steady.preload i.library _ hr
    split
    · next state hload =>
      rw [hload] at hlost
      exact hlost
    · next e state hload =>
      rw [hload] at hlost
      exact hlost
  · obtain ⟨hresult, hstate⟩ := hl.follows.preload i.library (hl.state hr)
    have hmoved := hl.moved hr hstate
    refine .ok () ?_
    match hload : ctx.host.preload i.library r.state,
      hload' : ctx'.host.preload i.library r'.state with
    | (result, state), (result', state') =>
      rw [hload, hload'] at hresult hmoved
      obtain rfl : result' = result := hresult
      simp only [hload, hload']
      cases result' with
      | ok _ => exact hmoved
      | error e => exact hl.note (.warned _) hmoved

theorem tandem_activate (hl : p.Lasting agree S ctx ctx' reads writes calls) {root : NodeId}
    (hrun : (execute ctx root none).Tandem p (execute ctx' root none)) :
    (activate ctx root).Tandem p (activate ctx' root) := by
  unfold activate
  rw [hl.same.program, hl.same.config]
  split
  · exact tandem_pure _
  · next node _ =>
    exact tandem_bind (tandem_note hl (.activated node.pipeline _)) fun _ =>
      tandem_ite hrun (tandem_pure _)

/-- Runs of one plan keep a pairing that survives whatever they do. -/
theorem tandem_runAll
    (hl : p.Lasting agree S ctx ctx' (fun _ => True) (fun _ => True) fun _ => True)
    (hplan : ctx'.plan = ctx.plan) (initial : PoolStore) :
    (runAll ctx initial).Tandem p (runAll ctx' initial) := by
  have hexecute : ∀ root seed, (execute ctx root seed).Tandem p (execute ctx' root seed) :=
    fun root seed => tandem_execute hl ctx.territory_univ trivial seed
  unfold runAll runFinite activateLive fireSubscriptions
  rw [hplan, hl.same.config]
  refine tandem_bind (tandem_preloadImports hl) fun _ => ?_
  refine tandem_bind (tandem_forM _ fun root _ =>
    tandem_unlessStopped hl (hexecute root none)) fun _ => ?_
  refine tandem_bind (tandem_forM _ fun root _ =>
    tandem_unlessStopped hl (tandem_activate hl (hexecute root none))) fun _ => ?_
  refine tandem_ite (tandem_forM _ fun s _ => tandem_unlessStopped hl ?_) (tandem_pure _)
  exact tandem_notifySubscriber hl (hexecute s.root _)

end Exec

end

end Sluice
