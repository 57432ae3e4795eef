/-
  Sluice.Proofs.Walk.Visits

  The nodes that a walk runs, in order. `trace` is the walk with a record of its visits: each is
  a node with the packet it was reached with and what followed on it. The record changes nothing,
  so the outcome of a trace is the outcome of the walk.

  What a single node can do is said once, by `Visit.Lawful`; a `Route` is a list of lawful visits
  of which each leads to the next. Everything later about walks is a fact about routes.
-/

import Sluice.Proofs.Run.Outcome

namespace Sluice

variable {σ α β : Type}

/-- The packet that a node hands on. -/
def Flow.packet : Flow → Packet
  | next packet | jump _ packet | stop packet => packet

/-- A node that a walk ran: the id it was reached at, the packet it was reached with, and what
followed, unless it failed or halted. -/
structure Visit where
  id : Nat
  node : Node
  packet : Packet
  flow : Option Flow

/-- Where a walk goes on from a visit, and with which packet. -/
def Visit.onward? (plan : Plan) (v : Visit) : Option (Nat × Packet) :=
  match v.flow with
  | none | some (.stop _) => none
  | some (.jump target packet) => some (target, packet)
  | some (.next packet) =>
    if v.node.terminal then none
    else (plan.next? v.id packet).map fun next => (next, packet)

namespace Step

/-- A walk with the visits it makes. -/
def trace (ctx : RunContext σ) (notify : String → Value → Exec σ Unit) :
    (budget : Nat) → Nat → Packet → Option Value → Run σ →
      List Visit × (Except Halt (Except Failure Value) × Run σ)
  | 0, id, packet, _, r =>
    match (arrive ctx id).outcome r with
    | (.error halt, r) => ([], .error halt, r)
    | (.ok (.error failure), r) => ([], .ok (.error failure), r)
    | (.ok (.ok none), r) => ([], .ok (.ok packet.value), r)
    | (.ok (.ok (some node)), r) =>
      let cause := .limitExceeded .pipelineSteps ctx.config.maxSteps
      ([], .ok (.error ⟨cause, .atNode node node.name⟩), r)
  | budget + 1, id, packet, seed, r =>
    match (arrive ctx id).outcome r with
    | (.error halt, r) => ([], .error halt, r)
    | (.ok (.error failure), r) => ([], .ok (.error failure), r)
    | (.ok (.ok none), r) => ([], .ok (.ok packet.value), r)
    | (.ok (.ok (some node)), r) =>
      match (runNode ctx notify node packet seed).outcome r with
      | (.error halt, r) => ([⟨id, node, packet, none⟩], .error halt, r)
      | (.ok (.error failure), r) => ([⟨id, node, packet, none⟩], .ok (.error failure), r)
      | (.ok (.ok flow), r) =>
        let v : Visit := ⟨id, node, packet, some flow⟩
        match v.onward? ctx.plan with
        | none => ([v], .ok (.ok flow.packet.value), r)
        | some (next, packet) =>
          let rest := trace ctx notify budget next packet none r
          (v :: rest.1, rest.2)

/-- The visits of a walk. -/
def visits (ctx : RunContext σ) (notify : String → Value → Exec σ Unit) (budget id : Nat)
    (packet : Packet) (seed : Option Value) (r : Run σ) : List Visit :=
  (trace ctx notify budget id packet seed r).1

/-- Recording the visits of a walk does not change what comes of it. -/
theorem trace_outcome (ctx : RunContext σ) (notify : String → Value → Exec σ Unit)
    (budget id : Nat) (packet : Packet) (seed : Option Value) (r : Run σ) :
    (trace ctx notify budget id packet seed r).2 =
      (walk ctx notify budget id packet seed).outcome r := by
  induction budget generalizing id packet seed r with
  | zero =>
    unfold trace walk
    rw [outcome_bind]
    match (arrive ctx id).outcome r with
    | (.error halt, r) => rfl
    | (.ok (.error failure), r) => rfl
    | (.ok (.ok none), r) => rfl
    | (.ok (.ok (some node)), r) => rfl
  | succ budget ih =>
    unfold trace walk
    rw [outcome_bind]
    match (arrive ctx id).outcome r with
    | (.error halt, r) => rfl
    | (.ok (.error failure), r) => rfl
    | (.ok (.ok none), r) => rfl
    | (.ok (.ok (some node)), r) =>
      simp only
      rw [outcome_bind]
      match (runNode ctx notify node packet seed).outcome r with
      | (.error halt, r) => rfl
      | (.ok (.error failure), r) => rfl
      | (.ok (.ok (.stop packet)), r) => rfl
      | (.ok (.ok (.jump target packet)), r) => exact ih target packet none r
      | (.ok (.ok (.next packet)), r) =>
        simp only [Visit.onward?]
        by_cases hterminal : node.terminal
        · simp only [hterminal, if_true]
          rfl
        · simp only [hterminal]
          match ctx.plan.next? id packet with
          | none => rfl
          | some next => exact ih next packet none r

-- ============================================================================
-- What a node can do
-- ============================================================================

/-- Whatever a part of a pipeline's run returns has a property. -/
def Returns (Q : α → Prop) (m : Step σ α) : Prop :=
  ∀ r a r', m.outcome r = (.ok (.ok a), r') → Q a

theorem returns_pure {Q : α → Prop} {a : α} (h : Q a) : Returns Q (pure a : Step σ α) := by
  rintro r a' r' heq
  cases heq
  exact h

theorem returns_bind_of {P : α → Prop} {Q : β → Prop} {m : Step σ α} {f : α → Step σ β}
    (hm : Returns P m) (hf : ∀ a, P a → Returns Q (f a)) : Returns Q (m >>= f) := by
  intro r b r' heq
  rw [outcome_bind] at heq
  match hout : m.outcome r with
  | (.error halt, r₁) =>
    rw [hout] at heq
    cases heq
  | (.ok (.error failure), r₁) =>
    rw [hout] at heq
    cases heq
  | (.ok (.ok a), r₁) =>
    rw [hout] at heq
    exact hf a (hm r a r₁ hout) r₁ b r' heq

theorem returns_bind {Q : β → Prop} {m : Step σ α} {f : α → Step σ β}
    (hf : ∀ a, Returns Q (f a)) : Returns Q (m >>= f) :=
  returns_bind_of (fun _ _ _ _ => trivial : Returns (fun _ => True) m) fun a _ => hf a

/-- An operator changes the value only. -/
theorem returns_runOperator (ctx : RunContext σ) (node : Node) (packet : Packet) :
    Returns (fun out => ∃ value, out = { packet with value }) (runOperator ctx node packet) := by
  refine returns_bind fun args => returns_bind fun value => ?_
  split
  · exact returns_bind fun _ => returns_pure ⟨value, rfl⟩
  · split
    · exact returns_bind fun _ => returns_pure ⟨value, rfl⟩
    · exact returns_pure ⟨value, rfl⟩

/-- A split changes the selector only, every other lens the value only. -/
theorem returns_applyLens (ctx : RunContext σ) (node : Node) (lens : Lens) (body : LensBody)
    (packet : Packet) :
    Returns (fun out => if lens = .split then ∃ b, out = { packet with selector := some b }
      else ∃ value, out = { packet with value }) (applyLens ctx node lens body packet) := by
  cases lens with
  | map => exact returns_bind fun _ => returns_bind fun _ => returns_pure ⟨_, rfl⟩
  | filter => exact returns_bind fun _ => returns_bind fun _ => returns_pure ⟨_, rfl⟩
  | split => exact returns_bind fun _ => returns_pure ⟨_, rfl⟩
  | reduce =>
    simp only [reduceCtorEq, if_false]
    refine returns_bind fun _ => ?_
    split
    · exact returns_bind fun _ => returns_pure ⟨_, rfl⟩
    · split
      · exact returns_bind fun _ => returns_bind fun _ => returns_pure ⟨_, rfl⟩
      · exact returns_bind fun _ => returns_pure ⟨_, rfl⟩

end Step

/-- What can follow on a node. A branch hands its packet on or is left for the node where it
joins; a split decides, a source starts afresh, and every other node changes the value only. -/
def Visit.Lawful (plan : Plan) (v : Visit) : Prop :=
  match v.node.kind with
  | .branch expects =>
    v.flow = some (if v.packet.decision = expects then .next v.packet
      else match plan.join? v.node.id with
        | some target => .jump target v.packet
        | none => .stop v.packet)
  | .finiteSource _ | .liveSource _ | .poolAccess _ =>
    ∀ flow, v.flow = some flow → ∃ value, flow = .next { value }
  | .lens lens _ =>
    ∀ flow, v.flow = some flow → ∃ packet, flow = .next packet ∧
      if lens = .split then ∃ b, packet = { v.packet with selector := some b }
      else ∃ value, packet = { v.packet with value }
  | .operator | .poolWrite _ =>
    ∀ flow, v.flow = some flow → ∃ value, flow = .next { v.packet with value }

section

variable {ctx : RunContext σ} {notify : String → Value → Exec σ Unit} {node : Node}
  {packet : Packet} {seed : Option Value} {id : Nat}

/-- What follows on a node that ran is lawful. -/
theorem Step.returns_runNode :
    Returns (fun flow => Visit.Lawful ctx.plan ⟨id, node, packet, some flow⟩)
      (runNode ctx notify node packet seed) := by
  unfold runNode Visit.Lawful
  simp only
  cases node.kind with
  | finiteSource literal => exact returns_pure fun flow h => ⟨_, (Option.some.inj h).symm⟩
  | liveSource literal => exact returns_pure fun flow h => ⟨_, (Option.some.inj h).symm⟩
  | poolAccess pool =>
    exact returns_bind fun _ => returns_pure fun flow h => ⟨_, (Option.some.inj h).symm⟩
  | operator =>
    refine returns_bind_of (returns_runOperator ctx node packet) fun out hout => returns_pure ?_
    obtain ⟨value, rfl⟩ := hout
    exact fun flow h => ⟨value, (Option.some.inj h).symm⟩
  | lens lens body =>
    refine returns_bind_of (returns_applyLens ctx node lens body packet) fun out hout =>
      returns_pure fun flow h => ⟨out, (Option.some.inj h).symm, hout⟩
  | branch expects =>
    simp only
    split
    · exact returns_pure rfl
    · cases ctx.plan.join? node.id with
      | some target => exact returns_pure rfl
      | none => exact returns_pure rfl
  | poolWrite pool =>
    exact returns_bind fun _ => returns_pure fun flow h => ⟨packet.value, (Option.some.inj h).symm⟩

/-- A branch always returns, so nothing lawful is asked of a node that did not. -/
theorem Visit.lawful_of_failed {r : Run σ}
    (h : ∀ flow r', (Step.runNode ctx notify node packet seed).outcome r ≠ (.ok (.ok flow), r')) :
    Visit.Lawful ctx.plan ⟨id, node, packet, none⟩ := by
  unfold Visit.Lawful
  simp only
  match hkind : node.kind with
  | .finiteSource _ | .liveSource _ | .poolAccess _ | .operator | .lens _ _ | .poolWrite _ =>
    intro flow hflow
    cases hflow
  | .branch expects =>
    unfold Step.runNode at h
    rw [hkind] at h
    simp only at h
    split at h
    · exact absurd rfl (h _ _)
    · cases hjoin : ctx.plan.join? node.id with
      | some target =>
        rw [hjoin] at h
        exact absurd rfl (h _ _)
      | none =>
        rw [hjoin] at h
        exact absurd rfl (h _ _)

end

-- ============================================================================
-- Routes
-- ============================================================================

/-- Visits of which each leads to the next. A route ends where a visit leads nowhere, or where
an arrival is refused. -/
inductive Route (ctx : RunContext σ) : Nat → Packet → List Visit → Prop where
  | refused {id : Nat} {packet : Packet} : Route ctx id packet []
  | ends {v : Visit} : ctx.program.node? v.id = some v.node → v.Lawful ctx.plan →
    v.onward? ctx.plan = none → Route ctx v.id v.packet [v]
  | goes {v : Visit} {next : Nat} {packet : Packet} {rest : List Visit} :
    ctx.program.node? v.id = some v.node → v.Lawful ctx.plan →
    v.onward? ctx.plan = some (next, packet) → Route ctx next packet rest →
    Route ctx v.id v.packet (v :: rest)

/-- Arriving at a node gives the node that is there. -/
theorem Step.node?_of_arrive {ctx : RunContext σ} {id : Nat} {node : Node} {r r' : Run σ}
    (h : (arrive ctx id).outcome r = (.ok (.ok (some node)), r')) :
    ctx.program.node? id = some node := by
  unfold arrive at h
  match hnode : ctx.program.node? id with
  | none =>
    rw [hnode] at h
    cases h
  | some found =>
    rw [hnode] at h
    simp only at h
    rw [outcome_get_bind] at h
    split at h
    · cases h
    · cases h
      rfl

/-- A walk takes a route. -/
theorem Step.route_visits (ctx : RunContext σ) (notify : String → Value → Exec σ Unit)
    (budget id : Nat) (packet : Packet) (seed : Option Value) (r : Run σ) :
    Route ctx id packet (visits ctx notify budget id packet seed r) := by
  induction budget generalizing id packet seed r with
  | zero =>
    unfold visits trace
    split <;> exact .refused
  | succ budget ih =>
    unfold visits trace
    split
    · exact .refused
    · exact .refused
    · exact .refused
    · next node r₁ harrive =>
      have hnode := node?_of_arrive harrive
      have hfailed : (∀ flow r', (runNode ctx notify node packet seed).outcome r₁ ≠
          (.ok (.ok flow), r')) → Route ctx id packet [⟨id, node, packet, none⟩] := by
        intro h
        let v : Visit := ⟨id, node, packet, none⟩
        have hv : Route ctx v.id v.packet [v] := .ends hnode (Visit.lawful_of_failed h) rfl
        exact hv
      split
      · next hrun => exact hfailed fun flow r' h => by rw [hrun] at h; cases h
      · next hrun => exact hfailed fun flow r' h => by rw [hrun] at h; cases h
      · next flow r₂ hrun =>
        let v : Visit := ⟨id, node, packet, some flow⟩
        have hlawful : v.Lawful ctx.plan := returns_runNode _ _ _ hrun
        simp only
        split
        · next honward =>
          have hv : Route ctx v.id v.packet [v] := .ends hnode hlawful honward
          exact hv
        · next next' packet' honward =>
          have hv : Route ctx v.id v.packet (v :: _) :=
            .goes hnode hlawful honward (ih next' packet' none r₂)
          exact hv

/-- From any of its visits on, a route is a route. -/
theorem Route.of_append {ctx : RunContext σ} {id : Nat} {packet : Packet}
    {before after : List Visit} {v : Visit} (h : Route ctx id packet (before ++ v :: after)) :
    Route ctx v.id v.packet (v :: after) := by
  induction before generalizing id packet with
  | nil =>
    cases h with
    | ends hnode hlawful honward => exact .ends hnode hlawful honward
    | goes hnode hlawful honward hrest => exact .goes hnode hlawful honward hrest
  | cons w before ih =>
    rw [List.cons_append] at h
    generalize hlist : before ++ v :: after = rest at h
    cases h with
    | ends => simp at hlist
    | goes hnode hlawful honward hrest =>
      rw [← hlist] at hrest
      exact ih hrest

end Sluice
