/-
  Sluice.Proofs.Walk.Stations

  Where the decision of a packet comes from. A split may call operators, so what it decides also
  depends on the state of the run in which it is reached. A station is a visit together with that
  state, and `stations` is the walk with a record of these.

  A source starts without a decision, a split decides by the truth of its steps on the value that
  it is reached with, and no other node changes what was decided. In a graph that is laid out a
  walk comes to no source but at its start, so a packet carries what the last split decided that
  it came through, and nothing before the first.
-/

import Sluice.Proofs.Walk.Routes

namespace Sluice

variable {σ : Type}

/-- A visit, and the state of the run in which its node was run. -/
structure Station (σ : Type) where
  visit : Visit
  run : Run σ

namespace Step

/-- What followed on a node, unless it failed or halted. -/
def flow? (out : Except Halt (Except Failure Flow) × Run σ) : Option Flow :=
  match out.1 with
  | .ok (.ok flow) => some flow
  | _ => none

/-- The stations of a walk. -/
def stations (ctx : RunContext σ) (notify : String → Value → Exec σ Unit) :
    (budget : Nat) → Nat → Packet → Option Value → Run σ → List (Station σ)
  | 0, _, _, _, _ => []
  | budget + 1, id, packet, seed, r =>
    match (arrive ctx id).outcome r with
    | (.ok (.ok (some node)), r) =>
      let out := (runNode ctx notify node packet seed).outcome r
      let v : Visit := ⟨id, node, packet, flow? out⟩
      ⟨v, r⟩ ::
        match v.onward? ctx.plan with
        | none => []
        | some (next, packet) => stations ctx notify budget next packet none out.2
    | _ => []

/-- The stations of a walk are its visits. -/
theorem stations_visits (ctx : RunContext σ) (notify : String → Value → Exec σ Unit)
    (budget id : Nat) (packet : Packet) (seed : Option Value) (r : Run σ) :
    (stations ctx notify budget id packet seed r).map Station.visit =
      visits ctx notify budget id packet seed r := by
  induction budget generalizing id packet seed r with
  | zero =>
    unfold visits trace
    split <;> rfl
  | succ budget ih =>
    unfold stations visits trace
    obtain ⟨_ | (_ | (_ | node)), r⟩ := (arrive ctx id).outcome r
    · rfl
    · rfl
    · rfl
    · simp only
      obtain ⟨_ | (_ | flow), r⟩ := (runNode ctx notify node packet seed).outcome r
      · rfl
      · rfl
      · simp only [flow?, List.map_cons]
        rcases Visit.onward? ctx.plan ⟨id, node, packet, some flow⟩ with _ | ⟨next, packet⟩
        · rfl
        · exact congrArg (_ :: ·) (ih next packet none r)

end Step

-- ============================================================================
-- One station
-- ============================================================================

namespace Station

variable {ctx : RunContext σ} {notify : String → Value → Exec σ Unit} {s : Station σ}

/-- What followed at a station is what running the node came to there. -/
def Ran (ctx : RunContext σ) (notify : String → Value → Exec σ Unit) (s : Station σ) : Prop :=
  ∃ seed, s.visit.flow =
    Step.flow? ((Step.runNode ctx notify s.visit.node s.visit.packet seed).outcome s.run)

/-- What a split decides: the truth of its steps on the value that it was reached with. -/
def decision? (ctx : RunContext σ) (s : Station σ) : Option Bool :=
  match s.visit.node.kind with
  | .lens .split body =>
    match (Step.evalSteps ctx s.visit.node body.steps s.visit.packet.value).outcome s.run with
    | (.ok (.ok value), _) => some value.isTruthy
    | _ => none
  | _ => none

/-- A split hands its packet on with its decision, if its steps come to a value. -/
theorem Ran.flow_eq (h : s.Ran ctx notify) {body : LensBody}
    (hkind : s.visit.node.kind = .lens .split body) :
    s.visit.flow =
      (s.decision? ctx).map fun c => .next { s.visit.packet with selector := some c } := by
  obtain ⟨seed, hflow⟩ := h
  rw [hflow]
  unfold Step.runNode Step.applyLens decision?
  rw [hkind]
  simp only
  rw [Step.outcome_bind, Step.outcome_bind]
  match (Step.evalSteps ctx s.visit.node body.steps s.visit.packet.value).outcome s.run with
  | (.error halt, r) => rfl
  | (.ok (.error failure), r) => rfl
  | (.ok (.ok value), r) => rfl

/-- A walk goes on with the packet that the node hands on. -/
theorem exists_flow {plan : Plan} {v : Visit} {next : Nat} {out : Packet}
    (h : v.onward? plan = some (next, out)) : ∃ flow, v.flow = some flow ∧ flow.packet = out := by
  unfold Visit.onward? at h
  split at h
  · cases h
  · cases h
  · next target packet hflow =>
    cases h
    exact ⟨_, hflow, rfl⟩
  · next packet hflow =>
    refine ⟨_, hflow, ?_⟩
    split at h
    · cases h
    · obtain ⟨k, -, heq⟩ := Option.map_eq_some_iff.1 h
      cases heq
      rfl

/-- A split that decides hands its decision on. -/
theorem selector_of_decision? (hran : s.Ran ctx notify) {c : Bool} (hc : s.decision? ctx = some c)
    {next : Nat} {out : Packet} (honward : s.visit.onward? ctx.plan = some (next, out)) :
    out.selector = some c := by
  obtain ⟨flow, hflow, rfl⟩ := exists_flow honward
  have hc' := hc
  unfold decision? at hc'
  split at hc'
  · next body hkind =>
    rw [hran.flow_eq hkind, hc] at hflow
    cases hflow
    rfl
  · cases hc'

/-- A source starts without a decision, a split decides, and every other node leaves a packet the
decision it came with. -/
theorem selector_onward (hran : s.Ran ctx notify) (hlawful : s.visit.Lawful ctx.plan) {next : Nat}
    {out : Packet} (honward : s.visit.onward? ctx.plan = some (next, out)) :
    out.selector = if s.visit.node.kind.isSource then none
      else (s.decision? ctx).or s.visit.packet.selector := by
  obtain ⟨flow, hflow, rfl⟩ := exists_flow honward
  unfold Visit.Lawful at hlawful
  match hkind : s.visit.node.kind with
  | .finiteSource _ | .liveSource _ | .poolAccess _ =>
    rw [hkind] at hlawful
    obtain ⟨value, rfl⟩ := hlawful flow hflow
    rfl
  | .operator | .poolWrite _ =>
    rw [hkind] at hlawful
    obtain ⟨value, rfl⟩ := hlawful flow hflow
    simp [decision?, hkind, NodeKind.isSource, Flow.packet]
  | .branch expects =>
    rw [hkind] at hlawful
    simp only at hlawful
    rw [hflow] at hlawful
    have hpacket : flow.packet = s.visit.packet := by
      rw [Option.some.inj hlawful]
      split
      · rfl
      · split <;> rfl
    rw [hpacket]
    simp [decision?, hkind, NodeKind.isSource]
  | .lens .split body =>
    rw [hran.flow_eq hkind] at hflow
    obtain ⟨c, hc, rfl⟩ := Option.map_eq_some_iff.1 hflow
    rw [hc]
    rfl
  | .lens .map body | .lens .filter body | .lens .reduce body =>
    rw [hkind] at hlawful
    obtain ⟨packet, rfl, value, rfl⟩ := hlawful flow hflow
    simp [decision?, hkind, NodeKind.isSource, Flow.packet]

end Station

/-- What was decided last at some stations, if there was a split among them. -/
def decided? (ctx : RunContext σ) (stations : List (Station σ)) : Option Bool :=
  (stations.filterMap (·.decision? ctx)).getLast?

theorem decided?_append (ctx : RunContext σ) (first last : List (Station σ)) :
    decided? ctx (first ++ last) = (decided? ctx last).or (decided? ctx first) := by
  unfold decided?
  rw [List.filterMap_append, List.getLast?_append]

theorem decided?_singleton (ctx : RunContext σ) (s : Station σ) :
    decided? ctx [s] = s.decision? ctx := by
  unfold decided?
  cases h : s.decision? ctx with
  | none => rw [List.filterMap_cons_none h]; rfl
  | some c => rw [List.filterMap_cons_some h]; rfl

-- ============================================================================
-- Whole walks
-- ============================================================================

/-- At every station the walk did what running the node came to. -/
theorem Step.ran_of_mem_stations {ctx : RunContext σ} {notify : String → Value → Exec σ Unit}
    {budget id : Nat} {packet : Packet} {seed : Option Value} {r : Run σ} :
    ∀ s ∈ stations ctx notify budget id packet seed r, s.Ran ctx notify := by
  induction budget generalizing id packet seed r with
  | zero =>
    intro s hs
    cases hs
  | succ budget ih =>
    intro s hs
    unfold stations at hs
    split at hs
    · rcases List.mem_cons.1 hs with rfl | hs
      · exact ⟨seed, rfl⟩
      · split at hs
        · cases hs
        · exact ih s hs
    · cases hs

/-- A walk leads to no source. -/
theorem Visit.continues_of_onward? {ctx : RunContext σ} {anchors : Nat → Nat} {v : Visit}
    (hctx : ctx.Planned anchors) (hmove : v.Move ctx.program ctx.plan) {next : Nat}
    {packet : Packet} (honward : v.onward? ctx.plan = some (next, packet)) :
    ctx.program.continues next = true := by
  rcases leads_to hmove honward with hbranch | ⟨-, hcontinues, -⟩ | ⟨-, -, hcontinues, -⟩
  · exact Program.continues_of_isBranch (hctx.layout.mem_branchesOf.1 hbranch).1
  · exact hcontinues
  · exact hcontinues

section

variable {ctx : RunContext σ} {anchors : Nat → Nat} {notify : String → Value → Exec σ Unit}

/-- What the first node of a route hands on carries what it decided, or else the decision that the
route came with, if the route does not start with a source. -/
theorem Route.selector_first {s : Station σ} {rest : List Visit} {id : Nat} {packet : Packet}
    (h : Route ctx id packet (s.visit :: rest)) (hran : s.Ran ctx notify)
    (hstart : packet.selector = none ∨ ctx.program.continues id = true) {next : Nat} {out : Packet}
    (honward : s.visit.onward? ctx.plan = some (next, out)) :
    out.selector = (s.decision? ctx).or packet.selector := by
  obtain ⟨rfl, rfl, hnode, hlawful, -⟩ := h.inv
  rw [s.selector_onward hran hlawful honward]
  split
  · next hsource =>
    rw [Program.continues_eq hnode, hsource] at hstart
    have hundecided : s.decision? ctx = none := by
      unfold Station.decision?
      split
      · next hkind =>
        rw [hkind] at hsource
        cases hsource
      · rfl
    rw [hundecided]
    exact (hstart.resolve_right (by decide)).symm
  · rfl

/-- Along a route a packet carries what the last split decided, or else the decision that it came
with, if the route does not start with a source. -/
theorem Route.selector_eq_decided? (hctx : ctx.Planned anchors) {before after : List (Station σ)}
    {s : Station σ} {id : Nat} {packet : Packet}
    (h : Route ctx id packet ((before ++ s :: after).map Station.visit))
    (hran : ∀ t ∈ before ++ s :: after, t.Ran ctx notify)
    (hstart : packet.selector = none ∨ ctx.program.continues id = true) {next : Nat} {out : Packet}
    (honward : s.visit.onward? ctx.plan = some (next, out)) :
    out.selector = (decided? ctx (before ++ [s])).or packet.selector := by
  induction before generalizing id packet with
  | nil =>
    rw [List.nil_append, decided?_singleton]
    exact h.selector_first (hran s List.mem_cons_self) hstart honward
  | cons t before ih =>
    have hnonempty : (before ++ s :: after).map Station.visit ≠ [] := by simp
    obtain ⟨-, -, hnode, hlawful, ⟨-, hnil⟩ | ⟨next', out', honward', hrest⟩⟩ := h.inv
    · exact absurd hnil hnonempty
    · -- Behind its start the route comes to no source any more.
      have hcontinues := Visit.continues_of_onward? hctx (Visit.move hctx hnode hlawful) honward'
      have hlater := ih hrest (fun u hu => hran u (List.mem_cons_of_mem t hu)) (.inr hcontinues)
      have hfirst := h.selector_first (hran t List.mem_cons_self) hstart honward'
      have hsplit : decided? ctx (t :: before ++ [s]) =
          (decided? ctx (before ++ [s])).or (t.decision? ctx) := by
        rw [← decided?_singleton, ← decided?_append]
        rfl
      rw [hlater, hfirst, hsplit, Option.or_assoc]

end

namespace Step

variable {ctx : RunContext σ} {anchors : Nat → Nat} {notify : String → Value → Exec σ Unit}
  {budget start : Nat} {seed : Option Value} {r : Run σ} {before after : List (Station σ)}
  {s : Station σ}

theorem route_stations {packet : Packet}
    (hstations : stations ctx notify budget start packet seed r = before ++ s :: after) :
    Route ctx start packet ((before ++ s :: after).map Station.visit) := by
  rw [← hstations, stations_visits]
  exact route_visits ctx notify budget start packet seed r

theorem ran_stations {packet : Packet}
    (hstations : stations ctx notify budget start packet seed r = before ++ s :: after) :
    ∀ t ∈ before ++ s :: after, t.Ran ctx notify := by
  rw [← hstations]
  exact ran_of_mem_stations

/-- A packet that started its pipeline carries what the last split decided that it came through,
and nothing before the first. -/
theorem selector_eq_decided? (hctx : ctx.Planned anchors)
    (hstations : stations ctx notify budget start {} seed r = before ++ s :: after) {next : Nat}
    {out : Packet} (honward : s.visit.onward? ctx.plan = some (next, out)) :
    out.selector = decided? ctx (before ++ [s]) := by
  have hran := ran_stations hstations
  rw [(route_stations hstations).selector_eq_decided? hctx hran (.inl rfl) honward]
  exact Option.or_none

/-- A packet comes to a station with what the last split before it decided. -/
theorem selector_arriving (hctx : ctx.Planned anchors)
    (hstations : stations ctx notify budget start {} seed r = before ++ s :: after) :
    s.visit.packet.selector = decided? ctx before := by
  have hroute := route_stations hstations
  rcases List.eq_nil_or_concat before with rfl | ⟨front, t, rfl⟩
  · obtain ⟨-, hpacket, -⟩ := hroute.inv
    rw [hpacket]
    rfl
  · rw [List.concat_eq_append, List.append_assoc, List.singleton_append] at hstations hroute
    rw [List.map_append, List.map_cons, List.map_cons] at hroute
    obtain ⟨-, -, -, -, ⟨-, hnil⟩ | ⟨next, out, honward, hrest⟩⟩ := hroute.of_append.inv
    · cases hnil
    · obtain ⟨-, hpacket, -⟩ := hrest.inv
      rw [hpacket, List.concat_eq_append]
      exact selector_eq_decided? hctx hstations honward

end Step

end Sluice
