/-
  Sluice.Proofs.Walk.Routes

  Routes through graphs that are laid out. A visit leads on in one of two ways: it hands its
  packet on, to a branch that hangs off it or to the node that follows, or it is a branch that is
  passed over, and is left for the first node behind its scope. So ids only grow along a route,
  and the one way into the scope of a branch is to take the branch.
-/

import Sluice.Engine
import Sluice.Proofs.Plan.Groups
import Sluice.Proofs.Program.Build
import Sluice.Proofs.Walk.Visits

namespace Sluice

variable {σ : Type}

/-- A context whose plan was made of its program, and whose program is laid out. -/
structure RunContext.Planned (ctx : RunContext σ) (anchors : Nat → Nat) : Prop where
  plan : ctx.plan = .ofProgram ctx.program
  layout : Layout ctx.program anchors

theorem Engine.planned_context (engine : Engine σ) {program : Program} {anchors : Nat → Nat}
    (h : Layout program anchors) : (engine.context program).Planned anchors :=
  ⟨rfl, h⟩

theorem Engine.planned_parse (engine : Engine σ) (source : String) :
    ∃ anchors, (engine.context (.parse source)).Planned anchors := by
  obtain ⟨anchors, hlayout⟩ := Program.parse_layout source
  exact ⟨anchors, engine.planned_context hlayout⟩

-- ============================================================================
-- One visit
-- ============================================================================

/-- What a visit does in a graph that is laid out. -/
inductive Visit.Move (p : Program) (plan : Plan) (v : Visit) : Prop where
  /-- It fails or halts; a branch never does. -/
  | failed : v.flow = none → p.expects? v.id = none → v.onward? plan = none → Move p plan v
  /-- It is a branch on the other decision, and is left for the first node behind its scope. -/
  | passedOver (e : Bool) (join : Option Nat) : p.expects? v.id = some e →
    v.packet.decision = (!e) → p.Skips v.id join →
    v.onward? plan = join.map (fun k => (k, v.packet)) → Move p plan v
  /-- It hands a packet on, unless it ends the pipeline. Only a split decides. -/
  | handedOn (out : Packet) : v.flow = some (.next out) →
    (∀ e, p.expects? v.id = some e → v.packet.decision = e ∧ out = v.packet) →
    (p.continues v.id → p.isSplit v.id = false → out.selector = v.packet.selector) →
    v.onward? plan = (if v.node.terminal then none
      else ((p.branchOn? v.id out.decision).or (p.follower? v.id)).map fun k => (k, out)) →
    Move p plan v

namespace Visit

variable {ctx : RunContext σ} {anchors : Nat → Nat} {v : Visit}

theorem scope?_eq (hnode : ctx.program.node? v.id = some v.node) :
    ctx.program.scope? v.id = v.node.scope := by
  unfold Program.scope?
  rw [hnode, Option.bind_some]

theorem expects?_eq (hnode : ctx.program.node? v.id = some v.node) :
    ctx.program.expects? v.id = v.node.kind.expects? := by
  unfold Program.expects?
  rw [hnode, Option.bind_some]

theorem isSplit_eq (hnode : ctx.program.node? v.id = some v.node) :
    ctx.program.isSplit v.id = v.node.kind.isSplit := by
  unfold Program.isSplit
  rw [hnode, Option.any_some]

/-- Where a visit leads that hands a packet on. -/
theorem onward?_of_next (hctx : ctx.Planned anchors) {out : Packet}
    (hflow : v.flow = some (.next out)) :
    v.onward? ctx.plan = (if v.node.terminal then none
      else ((ctx.program.branchOn? v.id out.decision).or (ctx.program.follower? v.id)).map
        fun k => (k, out)) := by
  unfold onward?
  rw [hflow, hctx.plan, ← hctx.layout.next?_eq]

/-- A node that is no branch fails or hands a packet on. -/
theorem move_of_next (hctx : ctx.Planned anchors) (hbranch : ctx.program.expects? v.id = none)
    (hflow : ∀ flow, v.flow = some flow → ∃ out, flow = .next out ∧
      (ctx.program.continues v.id → ctx.program.isSplit v.id = false →
        out.selector = v.packet.selector)) : Move ctx.program ctx.plan v := by
  match hv : v.flow with
  | none =>
    refine .failed hv hbranch ?_
    unfold onward?
    rw [hv]
  | some flow =>
    obtain ⟨out, rfl, hselector⟩ := hflow flow hv
    refine .handedOn out hv (fun e he => ?_) hselector (onward?_of_next hctx hv)
    rw [hbranch] at he
    cases he

/-- A branch is taken or passed over. -/
theorem move_of_branch (hctx : ctx.Planned anchors)
    (hnode : ctx.program.node? v.id = some v.node) (hlawful : v.Lawful ctx.plan) {e : Bool}
    (hkind : v.node.kind = .branch e) : Move ctx.program ctx.plan v := by
  have hexpects : ctx.program.expects? v.id = some e := by
    rw [expects?_eq hnode, hkind]
    rfl
  have hbranch := Program.isBranch_of_expects? hexpects
  have hid : v.node.id = v.id := hctx.layout.indexed v.id v.node hnode
  have hskips := hctx.layout.join?_skips hbranch
  unfold Lawful at hlawful
  rw [hkind, hid] at hlawful
  simp only at hlawful
  by_cases hdecision : v.packet.decision = e
  · rw [if_pos hdecision] at hlawful
    refine .handedOn v.packet hlawful (fun e' he' => ?_) (fun _ _ => rfl)
      (onward?_of_next hctx hlawful)
    rw [hexpects] at he'
    exact ⟨hdecision.trans (Option.some.inj he'), rfl⟩
  · rw [if_neg hdecision, hctx.plan] at hlawful
    refine .passedOver e _ hexpects (Bool.eq_not_of_ne hdecision) hskips ?_
    unfold onward?
    match hjoin : (Plan.ofProgram ctx.program).join? v.id with
    | some k =>
      rw [hjoin] at hlawful
      rw [hlawful]
      rfl
    | none =>
      rw [hjoin] at hlawful
      rw [hlawful]
      rfl

/-- Every lawful visit makes one of the moves. -/
theorem move (hctx : ctx.Planned anchors) (hnode : ctx.program.node? v.id = some v.node)
    (hlawful : v.Lawful ctx.plan) : Move ctx.program ctx.plan v := by
  match hkind : v.node.kind with
  | .branch e => exact move_of_branch hctx hnode hlawful hkind
  | .finiteSource _ | .liveSource _ | .poolAccess _ =>
    unfold Lawful at hlawful
    rw [hkind] at hlawful
    refine move_of_next hctx (by rw [expects?_eq hnode, hkind]; rfl) fun flow hflow => ?_
    obtain ⟨value, rfl⟩ := hlawful flow hflow
    refine ⟨_, rfl, fun hcontinues _ => ?_⟩
    rw [Program.continues_eq hnode, hkind] at hcontinues
    cases hcontinues
  | .operator | .poolWrite _ =>
    unfold Lawful at hlawful
    rw [hkind] at hlawful
    refine move_of_next hctx (by rw [expects?_eq hnode, hkind]; rfl) fun flow hflow => ?_
    obtain ⟨value, rfl⟩ := hlawful flow hflow
    exact ⟨_, rfl, fun _ _ => rfl⟩
  | .lens lens body =>
    unfold Lawful at hlawful
    rw [hkind] at hlawful
    refine move_of_next hctx (by rw [expects?_eq hnode, hkind]; rfl) fun flow hflow => ?_
    obtain ⟨out, rfl, hout⟩ := hlawful flow hflow
    refine ⟨out, rfl, fun _ hsplit => ?_⟩
    rw [isSplit_eq hnode, hkind] at hsplit
    have hlens : lens ≠ .split := by
      rintro rfl
      cases hsplit
    rw [if_neg hlens] at hout
    obtain ⟨value, rfl⟩ := hout
    rfl

/-- A visit leads to a branch that hangs off its node, to the node that follows, or, passed
over, to the first node behind its scope. -/
theorem leads_to (hmove : Move ctx.program ctx.plan v) {next : Nat}
    {packet : Packet} (honward : v.onward? ctx.plan = some (next, packet)) :
    (next ∈ ctx.program.branchesOf v.id) ∨
    (next = v.id + 1 ∧ ctx.program.continues next ∧
      ∀ e, ctx.program.expects? v.id = some e → v.packet.decision = e) ∨
    (ctx.program.isBranch v.id ∧ ctx.program.Skips v.id (some next)) := by
  cases hmove with
  | failed hflow hbranch hnone =>
    rw [hnone] at honward
    cases honward
  | passedOver e join he hdecision hskips hto =>
    rw [hto] at honward
    obtain ⟨k, rfl, hk⟩ := Option.map_eq_some_iff.1 honward
    cases hk
    exact .inr (.inr ⟨Program.isBranch_of_expects? he, hskips⟩)
  | handedOn out hflow hbranch hselector hto =>
    rw [hto] at honward
    split at honward
    · cases honward
    · obtain ⟨k, hk, heq⟩ := Option.map_eq_some_iff.1 honward
      cases heq
      rcases Option.or_eq_some_iff.1 hk with hon | ⟨-, hfollows⟩
      · exact .inl (List.mem_of_find?_eq_some hon)
      · unfold Program.follower? at hfollows
        split at hfollows
        · next hcontinues =>
          cases hfollows
          exact .inr (.inl ⟨rfl, hcontinues, fun e he => (hbranch e he).1⟩)
        · cases hfollows

/-- A walk goes forward. -/
theorem lt_of_onward? (hctx : ctx.Planned anchors) (hmove : Move ctx.program ctx.plan v)
    {next : Nat} {packet : Packet} (honward : v.onward? ctx.plan = some (next, packet)) :
    v.id < next := by
  rcases leads_to hmove honward with hbranch | ⟨rfl, -⟩ | ⟨-, hlt, -⟩
  · obtain ⟨hb, ha⟩ := hctx.layout.mem_branchesOf.1 hbranch
    rw [← ha]
    exact (hctx.layout.anchored next hb).1
  · omega
  · exact hlt

/-- The way into a scope is from within it, or from its branch when that is taken. -/
theorem enters_scope (hctx : ctx.Planned anchors) (hmove : Move ctx.program ctx.plan v)
    {next t : Nat} {packet : Packet} (honward : v.onward? ctx.plan = some (next, packet))
    (hscope : ctx.program.scope? next = some t) :
    ctx.program.scope? v.id = some t ∨
    (v.id = t ∧ ctx.program.expects? t = some v.packet.decision) := by
  have hp := hctx.layout
  obtain ⟨-, -, hbranch, hlt, hblock⟩ := hp.block next t hscope
  rcases leads_to hmove honward with hbranches | ⟨rfl, -, hdecision⟩ | ⟨hb, hskips⟩
  · rw [hp.scope?_of_isBranch (hp.mem_branchesOf.1 hbranches).1] at hscope
    cases hscope
  · by_cases heq : v.id = t
    · refine .inr ⟨heq, ?_⟩
      obtain ⟨e, he⟩ := Option.isSome_iff_exists.1 hbranch
      rw [he, hdecision e (by rw [heq]; exact he)]
    · exact .inl (hblock v.id (by omega) (by omega))
  · obtain ⟨hvn, -, hout, hinside⟩ := hskips
    -- Of two branches whose scopes both reach up to the target, neither is in the other's scope.
    have heq : t = v.id := by
      rcases Nat.lt_trichotomy t v.id with hbefore | heq | hafter
      · have hv := hblock v.id hbefore hvn
        rw [hp.scope?_of_isBranch hb] at hv
        cases hv
      · exact heq
      · have ht := hinside t hafter hlt
        rw [hp.scope?_of_isBranch hbranch] at ht
        cases ht
    exact absurd (by rw [hscope, heq]) hout

/-- Only a split or a source changes the decision that a packet carries. -/
theorem selector_onward? (hmove : Move ctx.program ctx.plan v) {next : Nat} {packet : Packet}
    (honward : v.onward? ctx.plan = some (next, packet)) (hcontinues : ctx.program.continues v.id)
    (hsplit : ctx.program.isSplit v.id = false) : packet.selector = v.packet.selector := by
  cases hmove with
  | failed hflow hbranch hnone =>
    rw [hnone] at honward
    cases honward
  | passedOver e join he hdecision hskips hto =>
    rw [hto] at honward
    obtain ⟨k, -, hk⟩ := Option.map_eq_some_iff.1 honward
    cases hk
    rfl
  | handedOn out hflow hbranch hselector hto =>
    rw [hto] at honward
    split at honward
    · cases honward
    · obtain ⟨k, -, hk⟩ := Option.map_eq_some_iff.1 honward
      cases hk
      exact hselector hcontinues hsplit

end Visit

-- ============================================================================
-- Whole routes
-- ============================================================================

namespace Route

variable {ctx : RunContext σ} {anchors : Nat → Nat} {id : Nat} {packet : Packet}
  {visits : List Visit}

/-- The first visit of a route, and the route behind it. -/
theorem inv {v : Visit} {rest : List Visit} (h : Route ctx id packet (v :: rest)) :
    v.id = id ∧ v.packet = packet ∧ ctx.program.node? v.id = some v.node ∧ v.Lawful ctx.plan ∧
    ((v.onward? ctx.plan = none ∧ rest = []) ∨
      ∃ next out, v.onward? ctx.plan = some (next, out) ∧ Route ctx next out rest) := by
  cases h with
  | ends hnode hlawful honward => exact ⟨rfl, rfl, hnode, hlawful, .inl ⟨honward, rfl⟩⟩
  | goes hnode hlawful honward hrest =>
    exact ⟨rfl, rfl, hnode, hlawful, .inr ⟨_, _, honward, hrest⟩⟩

/-- Behind its first visit a route goes on where the visit leads. -/
theorem onward {v : Visit} {rest : List Visit} (h : Route ctx id packet (v :: rest)) {next : Nat}
    {out : Packet} (honward : v.onward? ctx.plan = some (next, out)) : Route ctx next out rest := by
  rcases h.inv.2.2.2.2 with ⟨hnone, -⟩ | ⟨next', out', honward', hrest⟩
  · rw [hnone] at honward
    cases honward
  · rw [honward] at honward'
    cases honward'
    exact hrest

/-- The visits of a route are at the nodes of the graph. -/
theorem node?_of_mem (h : Route ctx id packet visits) :
    ∀ w ∈ visits, ctx.program.node? w.id = some w.node := by
  induction h with
  | refused =>
    intro w hw
    cases hw
  | ends hnode _ _ =>
    intro w hw
    rw [List.mem_singleton.1 hw]
    exact hnode
  | goes hnode _ _ _ ih =>
    intro w hw
    rcases List.mem_cons.1 hw with rfl | hw
    · exact hnode
    · exact ih w hw

/-- A route never goes back behind its start. -/
theorem le_of_mem (hctx : ctx.Planned anchors) (h : Route ctx id packet visits) :
    ∀ w ∈ visits, id ≤ w.id := by
  induction h with
  | refused =>
    intro w hw
    cases hw
  | ends hnode hlawful honward =>
    intro w hw
    obtain rfl := List.mem_singleton.1 hw
    exact Nat.le_refl _
  | goes hnode hlawful honward hrest ih =>
    intro w hw
    rcases List.mem_cons.1 hw with rfl | hw
    · exact Nat.le_refl _
    · have hlt := Visit.lt_of_onward? hctx (Visit.move hctx hnode hlawful) honward
      exact Nat.le_trans (Nat.le_of_lt hlt) (ih w hw)

/-- Whoever is in the scope of a branch took the branch, if the route began outside. -/
theorem took_branch (hctx : ctx.Planned anchors) (h : Route ctx id packet visits) {t : Nat}
    (hstart : ctx.program.scope? id ≠ some t) :
    ∀ w ∈ visits, ctx.program.scope? w.id = some t →
      ∃ u ∈ visits, u.id = t ∧ ctx.program.expects? t = some u.packet.decision := by
  induction h with
  | refused =>
    intro w hw
    cases hw
  | ends hnode hlawful honward =>
    intro w hw hscope
    rw [List.mem_singleton.1 hw] at hscope
    exact absurd hscope hstart
  | @goes v next packet rest hnode hlawful honward hrest ih =>
    intro w hw hscope
    rcases List.mem_cons.1 hw with rfl | hw
    · exact absurd hscope hstart
    · by_cases hnext : ctx.program.scope? next = some t
      · rcases Visit.enters_scope hctx (Visit.move hctx hnode hlawful) honward hnext with
          hin | ⟨hv, htaken⟩
        · exact absurd hin hstart
        · exact ⟨v, List.mem_cons_self, hv, htaken⟩
      · obtain ⟨u, hu, hut, htaken⟩ := ih hnext w hw hscope
        exact ⟨u, List.mem_cons_of_mem v hu, hut, htaken⟩

end Route

end Sluice
