/-
  Sluice.Proofs.Walk.BranchLines

  Branches line by line. Behind a stream line that ends in a split, the nodes of a branch line
  run only on the decision that the branch is on. There is one exception, where both paths meet
  by design: a terminal operator closes a branch that is not the first of its group, so the first
  one on the line runs on either decision, and ends the pipeline.

  Between the split and the second branch nothing decides anew, so a walk reaches both branches
  with the decision of the split. The scope of a branch on the other decision is then skipped, and
  there is no way around a terminal operator to the nodes written behind it.
-/

import Sluice.Proofs.Program.Lines
import Sluice.Proofs.Walk.Branches

namespace Sluice

variable {σ : Type}

/-- The first terminal operator on a line. -/
def Program.IsFirstTerminal (p : Program) (number id : Nat) : Prop :=
  p.isTerminal id ∧ ∀ (j : Nat) node, p.node? j = some node → node.line = number →
    node.kind.expects? = none → node.terminal → id ≤ j

/-- A terminal operator leads nowhere. -/
theorem Visit.onward?_of_terminal {ctx : RunContext σ} {v : Visit}
    (hmove : v.Move ctx.program ctx.plan) (hbranch : ctx.program.isBranch v.id = false)
    (hterminal : v.node.terminal) : v.onward? ctx.plan = none := by
  cases hmove with
  | failed hflow hnobranch hnone => exact hnone
  | passedOver e join he hdecision hskips hto =>
    unfold Program.isBranch at hbranch
    rw [he] at hbranch
    cases hbranch
  | handedOn out hflow hkeeps hselector hto =>
    rw [hto, if_pos hterminal]

namespace Route

variable {ctx : RunContext σ} {anchors : Nat → Nat} {id : Nat} {packet : Packet}
  {visits : List Visit}

-- ============================================================================
-- Along a route
-- ============================================================================

/-- The visits before another are at earlier nodes. -/
theorem lt_of_mem_before (hctx : ctx.Planned anchors) {before after : List Visit} {v : Visit}
    (h : Route ctx id packet (before ++ v :: after)) : ∀ w ∈ before, w.id < v.id := by
  intro w hw
  obtain ⟨front, back, rfl⟩ := List.append_of_mem hw
  rw [List.append_assoc, List.cons_append] at h
  obtain ⟨-, -, hnode, hlawful, hrest⟩ := h.of_append.inv
  rcases hrest with ⟨-, hnil⟩ | ⟨next, out, honward, hroute⟩
  · simp at hnil
  · have hlt := Visit.lt_of_onward? hctx (Visit.move hctx hnode hlawful) honward
    have hle := hroute.le_of_mem hctx v (List.mem_append_right back List.mem_cons_self)
    exact Nat.lt_of_lt_of_le hlt hle

/-- Whoever is visited at a later node than another is visited later. -/
theorem mem_of_lt (hctx : ctx.Planned anchors) {before after : List Visit} {v : Visit}
    (h : Route ctx id packet (before ++ v :: after)) {w : Visit}
    (hw : w ∈ before ++ v :: after) (hlt : v.id < w.id) : w ∈ v :: after := by
  rcases List.mem_append.1 hw with hw | hw
  · exact absurd (h.lt_of_mem_before hctx w hw) (Nat.not_lt_of_lt hlt)
  · exact hw

/-- A packet keeps its selector as long as it meets no source and no split. -/
theorem selector_of_mem (hctx : ctx.Planned anchors) (h : Route ctx id packet visits) {t : Nat}
    (hkeeps : ∀ i, id ≤ i → i < t → ctx.program.continues i ∧ ctx.program.isSplit i = false) :
    ∀ u ∈ visits, u.id ≤ t → u.packet.selector = packet.selector := by
  induction h with
  | refused =>
    intro u hu
    cases hu
  | ends hnode hlawful honward =>
    intro u hu _
    rw [List.mem_singleton.1 hu]
  | @goes v next out rest hnode hlawful honward hrest ih =>
    intro u hu hut
    rcases List.mem_cons.1 hu with rfl | hu
    · rfl
    · have hmove := Visit.move hctx hnode hlawful
      have hlt := Visit.lt_of_onward? hctx hmove honward
      have hle := hrest.le_of_mem hctx u hu
      obtain ⟨hcontinues, hsplit⟩ := hkeeps v.id (Nat.le_refl _) (by omega)
      rw [ih (fun i hi hit => hkeeps i (by omega) hit) u hu hut]
      exact Visit.selector_onward? hmove honward hcontinues hsplit

/-- There is no way around a terminal operator that is in no scope: a route does not come to
nodes behind it, as long as no branch is among them. -/
theorem not_behind_terminal (hctx : ctx.Planned anchors) (h : Route ctx id packet visits)
    {τ i : Nat} (hterminal : ctx.program.isTerminal τ) (hscope : ctx.program.scope? τ = none)
    (hbranch : ∀ j, τ ≤ j → j ≤ i → ctx.program.isBranch j = false)
    (hstart : ¬(τ < id ∧ id ≤ i)) : ∀ w ∈ visits, ¬(τ < w.id ∧ w.id ≤ i) := by
  induction h with
  | refused =>
    intro w hw
    cases hw
  | ends hnode hlawful honward =>
    intro w hw
    rw [List.mem_singleton.1 hw]
    exact hstart
  | @goes v next out rest hnode hlawful honward hrest ih =>
    intro w hw
    rcases List.mem_cons.1 hw with rfl | hw
    · exact hstart
    · refine ih ?_ w hw
      rintro ⟨hτ, hi⟩
      have hmove := Visit.move hctx hnode hlawful
      have hnext := hbranch next (Nat.le_of_lt hτ) hi
      rcases Visit.leads_to hmove honward with hon | ⟨rfl, -, -⟩ | ⟨hv, hlt, -, -, hskips⟩
      · rw [(hctx.layout.mem_branchesOf.1 hon).1] at hnext
        cases hnext
      · -- The one node before the stretch that leads into it is the operator.
        obtain rfl : v.id = τ := by omega
        unfold Program.isTerminal at hterminal
        rw [hnode, Option.any_some] at hterminal
        rw [Visit.onward?_of_terminal hmove (hbranch v.id (Nat.le_refl _) (by omega)) hterminal]
          at honward
        cases honward
      · have hbefore : v.id < τ := by
          rcases Nat.lt_or_ge v.id τ with hbefore | hafter
          · exact hbefore
          · rw [hbranch v.id hafter (by omega)] at hv
            cases hv
        rw [hskips τ hbefore hτ] at hscope
        cases hscope

-- ============================================================================
-- Along a branch line
-- ============================================================================

/-- If a route reaches a branch line with the other decision, it runs at most one node of the
line besides the branch: the first terminal operator, if that closes the branch. -/
theorem on_line_of_other (hctx : ctx.Planned anchors) (h : Route ctx id packet visits)
    {t n number : Nat} {e closes : Bool} (hline : ctx.program.BranchLine t n e closes)
    (hspans : ctx.program.Spans number t n) (hstart : id < t)
    (hother : ∀ u ∈ visits, u.id = t → u.packet.decision = !e) :
    ∀ w ∈ visits, w.node.kind.expects? = none → w.node.line = number →
      closes = true ∧ ctx.program.IsFirstTerminal number w.id := by
  have hp := hctx.layout
  intro w hw hoperator hnumber
  have hnode := h.node?_of_mem w hw
  obtain ⟨hle, hlt⟩ := (hspans w.id w.node hnode).1 hnumber
  have hbehind : ∀ (j : Nat) node, ctx.program.node? j = some node → node.kind.expects? = none →
      t ≤ j → t < j := by
    intro j node hj hexpects htj
    rcases Nat.lt_or_eq_of_le htj with hlt | rfl
    · exact hlt
    · have hbranch := hline.expects
      unfold Program.expects? at hbranch
      rw [hj, Option.bind_some, hexpects] at hbranch
      cases hbranch
  have htw := hbehind w.id w.node hnode hoperator hle
  rcases (hline.nodes w.id w.node htw hlt hnode).scope with
    hscope | ⟨-, hcloses, τ, ⟨htτ, hterminal, hfirst⟩, hnone, hτw⟩
  · -- Whoever is in the scope took the branch.
    exfalso
    have hoff : ctx.program.scope? id ≠ some t := fun hin => by
      have := (hp.block id t hin).2.2.2.1
      omega
    obtain ⟨u, hu, hut, htook⟩ :=
      h.took_branch hctx hoff w hw (by rw [Visit.scope?_eq hnode, hscope])
    rw [hline.expects, hother u hu hut] at htook
    cases e <;> cases htook
  · have hbranch : ∀ j, τ ≤ j → j ≤ w.id → ctx.program.isBranch j = false := by
      intro j hτj hjw
      unfold Program.isBranch Program.expects?
      match hj : ctx.program.node? j with
      | none => rfl
      | some node =>
        rw [Option.bind_some, (hline.nodes j node (by omega) (by omega) hj).expects]
        rfl
    have hnot := h.not_behind_terminal hctx hterminal hnone hbranch (by omega) w hw
    obtain rfl : τ = w.id := by omega
    refine ⟨hcloses, hterminal, fun j node hj hjline hexpects hjterminal => ?_⟩
    have htj := hbehind j node hj hexpects ((hspans j node hj).1 hjline).1
    rcases Nat.lt_or_ge j w.id with hjw | hwj
    · have hno := hfirst j (by omega) hjw
      unfold Program.isTerminal at hno
      rw [hj, Option.any_some, hjterminal] at hno
      cases hno
    · exact hwj

end Route

/-- As long as nothing decides anew behind a split, what comes there is on its decision. -/
theorem Step.decision_behind {ctx : RunContext σ} {anchors : Nat → Nat}
    (hctx : ctx.Planned anchors) {notify : String → Value → Exec σ Unit} {budget start : Nat}
    {packet : Packet} {seed : Option Value} {r : Run σ} {before after : List (Station σ)}
    {s : Station σ} {c : Bool} {t : Nat}
    (hstations : stations ctx notify budget start packet seed r = before ++ s :: after)
    (hdecides : s.decision? ctx = some c)
    (hkeeps : ∀ i, s.visit.id + 1 ≤ i → i < t →
      ctx.program.continues i ∧ ctx.program.isSplit i = false) :
    ∀ u ∈ s.visit :: after.map Station.visit, s.visit.id < u.id → u.id ≤ t →
      u.packet.decision = c := by
  intro u hu hsu hut
  have hroute := route_stations hstations
  rw [List.map_append, List.map_cons] at hroute
  obtain ⟨-, -, hnode, hlawful, hgoes⟩ := hroute.of_append.inv
  rcases List.mem_cons.1 hu with rfl | hu
  · omega
  · rcases hgoes with ⟨-, hnil⟩ | ⟨next, out, honward, hrest⟩
    · rw [hnil] at hu
      cases hu
    · have hran := ran_stations hstations s (List.mem_append_right before List.mem_cons_self)
      have hlt := Visit.lt_of_onward? hctx (Visit.move hctx hnode hlawful) honward
      have hselector := hrest.selector_of_mem hctx
        (fun i hi hit => hkeeps i (Nat.lt_of_lt_of_le hlt hi) hit) u hu hut
      unfold Packet.decision
      rw [hselector, Station.selector_of_decision? hran hdecides honward]
      rfl

/-- Behind a split with a branch line on true and one on false, a walk whose split comes out true
runs no operator of the line on false, and one whose split comes out false none of the line on
true, but for a terminal operator: the first one on the line on false, and, if the split is itself
in a branch, the first one on the line on true. -/
theorem Step.branch_lines_are_exclusive (engine : Engine σ) (source : String) (ctx : RunContext σ)
    (hctx : ctx = engine.context (.parse source)) (earlier later : List Source.Line)
    (first yes no : Source.Line)
    (hlines : (Source.scan source).lines = earlier ++ first :: yes :: no :: later)
    (hfirst : first.endsInSplit) (hyes : yes.opensBranch true) (hno : no.opensBranch false)
    (notify : String → Value → Exec σ Unit) (budget start : Nat) (packet : Packet)
    (seed : Option Value) (r : Run σ) (before after : List (Station σ)) (s : Station σ) (c : Bool)
    (hstations : stations ctx notify budget start packet seed r = before ++ s :: after)
    (hsplit : s.visit.node.line = first.number)
    (hlast : ∀ (j : Nat) node, ctx.program.node? j = some node → node.line = first.number →
      j ≤ s.visit.id)
    (hdecides : s.decision? ctx = some c) :
    ∀ w ∈ before ++ s :: after, w.visit.node.kind.expects? = none →
      (c = true → w.visit.node.line = no.number →
        ctx.program.IsFirstTerminal no.number w.visit.id) ∧
      (c = false → w.visit.node.line = yes.number →
        ctx.program.IsFirstTerminal yes.number w.visit.id ∧ s.visit.node.scope.isSome) := by
  obtain ⟨anchors, hplanned⟩ := engine.planned_parse source
  obtain ⟨i, m, n, hgraph⟩ := Program.parse_splitLines hlines hfirst hyes hno
  rw [← hctx] at hplanned
  replace hgraph : ctx.program.SplitLines first yes no i m n := by
    rw [hctx]
    exact hgraph
  have hroute := route_stations hstations
  rw [List.map_append, List.map_cons] at hroute
  have hordered := hgraph.ordered
  obtain ⟨-, -, hnode, -, -⟩ := hroute.of_append.inv
  obtain rfl : s.visit.id = i := by
    obtain ⟨lo, hlo, hspans⟩ := hgraph.first
    obtain ⟨node, hs, -⟩ := (Option.any_eq_true _ _).1 hgraph.split
    have hle := hlast i node hs ((hspans i node hs).2 ⟨hlo, Nat.lt_succ_self i⟩)
    have hlt := ((hspans s.visit.id s.visit.node hnode).1 hsplit).2
    omega
  obtain ⟨closes, hyesLine, hcloses⟩ := hgraph.onTrue
  obtain ⟨closes', hnoLine⟩ := hgraph.onFalse
  -- Both branches are reached with the decision of the split.
  have hdecision := decision_behind hplanned hstations hdecides hgraph.keeps
  intro w hw hoperator
  have hw' : w.visit ∈ before.map Station.visit ++ s.visit :: after.map Station.visit := by
    rw [← List.map_cons, ← List.map_append]
    exact List.mem_map_of_mem hw
  have hspan := hroute.node?_of_mem w.visit hw'
  refine ⟨fun hc hnumber => ?_, fun hc hnumber => ?_⟩
  · obtain ⟨hle, -⟩ := (hgraph.no w.visit.id w.visit.node hspan).1 hnumber
    refine (hroute.of_append.on_line_of_other hplanned hnoLine hgraph.no hordered ?_ w.visit
      (hroute.mem_of_lt hplanned hw' (by omega)) hoperator hnumber).2
    intro u hu hum
    rw [hdecision u hu (by omega) (by omega), hc]
    rfl
  · obtain ⟨hle, -⟩ := (hgraph.yes w.visit.id w.visit.node hspan).1 hnumber
    obtain ⟨hclosed, hterminal⟩ := hroute.of_append.on_line_of_other hplanned hyesLine hgraph.yes
      (Nat.lt_succ_self _) (fun u hu hum => by
        rw [hdecision u hu (by omega) (by omega), hc]
        rfl) w.visit (hroute.mem_of_lt hplanned hw' (by omega)) hoperator hnumber
    refine ⟨hterminal, ?_⟩
    rw [← Visit.scope?_eq hnode]
    exact hcloses hclosed

/-- A second branch that a terminal operator closes. -/
def metBranches : String :=
  "~ 5 | split \x7b> 3\x7d\nTRUE_FLOW | add(1)\nFALSE_FLOW | add(2) | print"

set_option maxRecDepth 4000 in
/-- The value is above three, and of the line on false only its end may run. -/
theorem Step.branch_lines_are_exclusive_met :
    ∃ before s after, Program.aloneStations metBranches = before ++ s :: after ∧
      s.visit.id = 1 ∧ s.visit.packet.value.render = "5" ∧
      s.decision? (Program.aloneContext metBranches) = some true ∧
      ∀ w ∈ before ++ s :: after, w.visit.node.kind.expects? = none → w.visit.node.line = 3 →
        (Program.aloneContext metBranches).program.IsFirstTerminal 3 w.visit.id := by
  have hlines : (Source.scan metBranches).lines = [] ++ ⟨1, "~ 5 | split \x7b> 3\x7d"⟩ ::
      ⟨2, "TRUE_FLOW | add(1)"⟩ :: ⟨3, "FALSE_FLOW | add(2) | print"⟩ :: [] := by decide +kernel
  have hlist : ((Program.aloneStations metBranches).map fun s => (s.visit.id, s.visit.node.line,
      s.visit.packet.value.render, s.decision? (Program.aloneContext metBranches))) =
      [(0, 1, "null", none)] ++ (1, 1, "5", some true) :: [(2, 2, "5", none), (3, 2, "5", none),
        (4, 3, "6", none), (6, 3, "6", none)] := by decide +kernel
  have hnodes : ∀ j < (Program.aloneContext metBranches).program.nodes.size,
      ((Program.aloneContext metBranches).program.node? j).any (·.line = 1) → j ≤ 1 := by
    decide +kernel
  obtain ⟨before, s, after, hstations, -, hs⟩ := exists_split_of_map hlist
  obtain ⟨hid, hline, hvalue, hdecides⟩ :
      s.visit.id = 1 ∧ s.visit.node.line = 1 ∧ s.visit.packet.value.render = "5" ∧
        s.decision? (Program.aloneContext metBranches) = some true := by
    simpa only [Prod.mk.injEq] using hs
  have hlast : ∀ (j : Nat) node, (Program.aloneContext metBranches).program.node? j = some node →
      node.line = 1 → j ≤ s.visit.id := by
    intro j node hj hnumber
    rw [hid]
    refine hnodes j (Program.lt_size_of_node? hj) ?_
    rw [hj, Option.any_some]
    exact decide_eq_true hnumber
  refine ⟨before, s, after, hstations, hid, hvalue, hdecides, fun w hw hoperator hnumber => ?_⟩
  exact (Step.branch_lines_are_exclusive (Session.engine {} []) metBranches
    (Program.aloneContext metBranches) rfl [] [] _ _ _ hlines (by decide +kernel)
    (by decide +kernel) (by decide +kernel) _ _ _ _ _ _ before after s true hstations hline hlast
    hdecides w hw hoperator).1 rfl hnumber

set_option maxRecDepth 4000 in
/-- On a value for which the split decides for the first branch, the terminal operator that is
written on the line of the second one runs. -/
theorem Step.branches_meet_at_terminal :
    ((Source.scan metBranches).lines.map fun line =>
        (line.number, line.endsInSplit, line.opensBranch true, line.opensBranch false)) =
      [(1, true, false, false), (2, false, true, false), (3, false, false, true)] ∧
    ((Program.aloneVisits metBranches).map fun w =>
        (w.id, w.node.line, w.packet.selector, w.node.kind.expects?)) =
      [(0, 1, none, none), (1, 1, none, none), (2, 2, some true, some true),
        (3, 2, some true, none), (4, 3, some true, some false), (6, 3, some true, none)] := by
  decide +kernel

end Sluice
