/-
  Sluice.Proofs.Walk.Branches

  What a group of branches does.

  A packet that carries a decision goes through the group as through an if: it runs the scopes of
  the branches on that decision, all of them and in order, and no node in the scope of another
  branch. Behind the group it goes on at the next node of the pipeline. If the last node that it
  ran in the group is itself one that branches hang off, it goes on at the first of those on the
  decision, if there is one, and the branches before that one are not even looked at.

  The decision is that of the last split that the packet came through. Without one every branch
  looks at the value it is reached with. The first branch is then chosen by the value that left the
  anchor, and the second by what the first made of it.
-/

import Sluice.Proofs.Walk.Passage
import Sluice.Proofs.Walk.Stations
import Sluice.Session

namespace Sluice

variable {σ : Type}

section

variable {ctx : RunContext σ} {anchors : Nat → Nat} {a : Nat} {b : Bool} {v : Visit}

-- ============================================================================
-- From the anchor on
-- ============================================================================

theorem branchOn?_eq_some {p : Program} {d : Bool} {x : Nat} (h : p.branchOn? a d = some x) :
    x ∈ p.branchesOf a ∧ p.expects? x = some d ∧
      ∀ t ∈ p.branchesOf a, p.expects? t = some d → x ≤ t := by
  refine ⟨List.mem_of_find?_eq_some h, by simpa using List.find?_some h, fun t ht hd => ?_⟩
  unfold Program.branchOn? Program.branchesOf at h
  rw [List.find?_filter] at h
  obtain ⟨-, -, hfirst⟩ := List.find?_range_eq_some.1 h
  rcases Nat.lt_or_ge t x with hlt | hge
  · have hmem := (List.mem_filter.1 ht).2
    have hnot := hfirst t hlt
    rw [hmem, hd, beq_self_eq_true] at hnot
    cases hnot
  · exact hge

/-- A walk that leaves an anchor comes to a branch of the group: to the first on the packet's
decision, or, if there is none or if the anchor was itself passed over, to the first of all. -/
theorem enters_group (hctx : ctx.Planned anchors) (hmove : v.Move ctx.program ctx.plan)
    (hgroup : ctx.program.branchesOf v.id ≠ []) {x : Nat} {out : Packet}
    (honward : v.onward? ctx.plan = some (x, out)) :
    x ∈ ctx.program.branchesOf v.id ∧ (ctx.program.branchOn? v.id out.decision = some x ∨
      (x = v.id + 1 ∧ (ctx.program.branchOn? v.id out.decision = none ∨
        ∃ e, ctx.program.expects? v.id = some e ∧ v.packet.decision = (!e)))) := by
  have hp := hctx.layout
  obtain ⟨t, ht⟩ := List.exists_mem_of_ne_nil _ hgroup
  obtain ⟨htbranch, hta⟩ := hp.mem_branchesOf.1 ht
  obtain ⟨hbranch, hanchor⟩ := hp.first_branch htbranch hta
  have hfirst : v.id + 1 ∈ ctx.program.branchesOf v.id := hp.mem_branchesOf.2 ⟨hbranch, hanchor⟩
  cases hmove with
  | failed hflow hnobranch hnone =>
    rw [hnone] at honward
    cases honward
  | passedOver e join he hdecision hskips hto =>
    rw [hto] at honward
    obtain ⟨k, rfl, heq⟩ := Option.map_eq_some_iff.1 honward
    cases heq
    -- The first branch of the group is in no scope, so the anchor's scope is empty.
    have hx : x = v.id + 1 := by
      obtain ⟨hlt, -, -, hblock⟩ := hskips
      by_cases hnext : x = v.id + 1
      · exact hnext
      · have hscope := hblock (v.id + 1) (by omega) (by omega)
        rw [hp.scope?_of_isBranch hbranch] at hscope
        cases hscope
    subst hx
    exact ⟨hfirst, .inr ⟨rfl, .inr ⟨e, he, hdecision⟩⟩⟩
  | handedOn out' hflow hkeeps hselector hto =>
    rw [hto] at honward
    split at honward
    · cases honward
    · obtain ⟨k, hk, heq⟩ := Option.map_eq_some_iff.1 honward
      cases heq
      rcases Option.or_eq_some_iff.1 hk with hon | ⟨hnone, hfollows⟩
      · exact ⟨(branchOn?_eq_some hon).1, .inl hon⟩
      · unfold Program.follower? at hfollows
        rw [if_pos (Program.continues_of_isBranch hbranch)] at hfollows
        cases hfollows
        exact ⟨hfirst, .inr ⟨rfl, .inl hnone⟩⟩

/-- From where a walk enters a group, its whole body is still ahead. -/
theorem bodyFrom_eq_bodyOf (hctx : ctx.Planned anchors) (hmove : v.Move ctx.program ctx.plan)
    (hgroup : ctx.program.branchesOf v.id ≠ []) {x : Nat} {out : Packet}
    (honward : v.onward? ctx.plan = some (x, out)) (hb : out.decision = b) :
    ctx.program.bodyFrom v.id b x = ctx.program.bodyOf v.id b := by
  have hp := hctx.layout
  refine List.filter_eq_self.2 fun j hj => decide_eq_true ?_
  obtain ⟨t, hscope, ⟨hbranch, hanchor⟩, hexpects⟩ := hp.mem_bodyOf.1 hj
  have htj := (hp.block j t hscope).2.2.2.1
  have ht := hp.mem_branchesOf.2 ⟨hbranch, hanchor⟩
  rcases (enters_group hctx hmove hgroup honward).2 with hon | ⟨rfl, -⟩
  · rw [hb] at hon
    exact Nat.le_of_lt (Nat.lt_of_le_of_lt ((branchOn?_eq_some hon).2.2 t ht hexpects) htj)
  · have := (hp.anchored t hbranch).1
    omega

end

-- ============================================================================
-- Single sources
-- ============================================================================

/-- What a run of a source on its own works with. -/
def Program.aloneContext (source : String) : RunContext (Session Unit) :=
  (Session.engine {} []).context (.parse source)

/-- The visits of the first pipeline of a source that runs on its own. -/
def Program.aloneVisits (source : String) : List Visit :=
  Step.visits (aloneContext source) (fun _ _ => pure ()) 100 0 {} none
    { state := .ofConfig {} (), pools := .ofCapacity 100 }

/-- The stations of the first pipeline of a source that runs on its own. -/
def Program.aloneStations (source : String) : List (Station (Session Unit)) :=
  Step.stations (aloneContext source) (fun _ _ => pure ()) 100 0 {} none
    { state := .ofConfig {} (), pools := .ofCapacity 100 }

/-- An element is found where what is read off the list says it is. -/
theorem exists_split_of_map {α β : Type} {l : List α} {f : α → β} {xs ys : List β} {y : β}
    (h : l.map f = xs ++ y :: ys) :
    ∃ before a after, l = before ++ a :: after ∧ before ++ [a] = l.take (xs.length + 1) ∧
      f a = y := by
  obtain ⟨before, rest, rfl, rfl, hrest⟩ := List.map_eq_append_iff.1 h
  obtain ⟨a, after, rfl, ha, -⟩ := List.map_eq_cons_iff.1 hrest
  refine ⟨before, a, after, rfl, ?_, ha⟩
  rw [List.length_map, List.append_cons before a after]
  exact (List.take_left' List.length_append).symm

-- ============================================================================
-- Packets with a decision
-- ============================================================================

/-- Whatever a passage ran in the scope of a branch of the group, the branch is on the decision. -/
theorem Passes.expects?_eq {ctx : RunContext σ} {anchors : Nat → Nat} {a x : Nat} {b : Bool}
    {visits : List Visit} (hp : Layout ctx.program anchors) (h : Passes ctx a b x visits)
    (hnodes : ∀ w ∈ visits, ctx.program.node? w.id = some w.node) :
    ∀ w ∈ visits, ∀ t ∈ ctx.program.branchesOf a, w.node.scope = some t →
      ctx.program.expects? t = some b := by
  intro w hw t ht hscope
  have hscope? := Visit.scope?_eq (hnodes w hw)
  obtain ⟨inside, rest, rfl, -, hout, hway⟩ := h
  have hbody : ∀ j ∈ executed inside, j ∈ ctx.program.bodyOf a b := by
    intro j hj
    have hfrom : j ∈ ctx.program.bodyFrom a b x := by
      rcases hway with ⟨-, hbefore, -⟩ | ⟨hall, -⟩
      · exact hbefore.subset hj
      · rw [← hall]
        exact hj
    exact (List.mem_filter.1 hfrom).1
  rcases List.mem_append.1 hw with hinside | hrest
  · have hran : w.id ∈ executed inside :=
      List.mem_map.2 ⟨w, List.mem_filter.2 ⟨hinside, by rw [hscope]; rfl⟩, rfl⟩
    obtain ⟨s, hs, -, hexpects⟩ := hp.mem_bodyOf.1 (hbody _ hran)
    rw [hscope?, hscope] at hs
    cases hs
    exact hexpects
  · have hin : ctx.program.inGroup a w.id :=
      hp.inGroup_iff.2 (.inr ⟨t, by rw [hscope?, hscope], hp.mem_branchesOf.1 ht⟩)
    rw [hout w hrest] at hin
    cases hin

/-- A packet that leaves an anchor with a decision passes through the group, whose scopes hold
no split: no node runs in the scope of a branch on the other decision, the scopes on the decision
run in order and, unless the walk is cut short among them, as a whole, and then the walk goes on
behind the group. -/
theorem Step.branches_are_exclusive (engine : Engine σ) (source : String) (ctx : RunContext σ)
    (hctx : ctx = engine.context (.parse source)) (notify : String → Value → Exec σ Unit)
    (budget start : Nat) (packet : Packet) (seed : Option Value) (r : Run σ)
    (before after : List Visit) (v : Visit) (x : Nat) (out : Packet) (b : Bool)
    (hvisits : visits ctx notify budget start packet seed r = before ++ v :: after)
    (hleave : v.onward? ctx.plan = some (x, out)) (hselector : out.selector = some b)
    (hgroup : ctx.program.branchesOf v.id ≠ [])
    (hsplit : ∀ d, ∀ j ∈ ctx.program.bodyOf v.id d, ctx.program.isSplit j = false) :
    (∀ w ∈ after, ∀ t ∈ ctx.program.branchesOf v.id, w.node.scope = some t →
      ctx.program.expects? t = some b) ∧
    ∃ inside rest, after = inside ++ rest ∧ (∀ w ∈ inside, ctx.program.inGroup v.id w.id) ∧
      (∀ w ∈ rest, ctx.program.inGroup v.id w.id = false) ∧
      ((rest = [] ∧ executed inside <+: ctx.program.bodyOf v.id b ∧
          ∃ w, (v :: inside).getLast? = some w ∧ w.CutShort ctx.program ctx.plan v.id) ∨
        (executed inside = ctx.program.bodyOf v.id b ∧ ∃ w, inside.getLast? = some w ∧
          (w.onward? ctx.plan).map Prod.fst = ctx.program.exit? v.id w.id b ∧
          ∀ u ∈ rest.head?, (w.onward? ctx.plan).map Prod.fst = some u.id)) := by
  obtain ⟨anchors, hplanned⟩ := engine.planned_parse source
  rw [← hctx] at hplanned
  have hp := hplanned.layout
  have hroute := route_visits ctx notify budget start packet seed r
  rw [hvisits] at hroute
  obtain ⟨-, -, hnode, hlawful, -⟩ := hroute.of_append.inv
  have hmove := Visit.move hplanned hnode hlawful
  have hafter : Route ctx x out after := hroute.of_append.onward hleave
  obtain ⟨hx, -⟩ := enters_group hplanned hmove hgroup hleave
  have hbranch := hp.mem_branchesOf.1 hx
  have hdecision : out.decision = b := by
    unfold Packet.decision
    rw [hselector]
    rfl
  have hpasses : Passes ctx v.id b x after := by
    refine passes_of_route hplanned (fun j t hj ht => ?_) hafter (.inl hbranch) hselector
      fun t ht => ?_
    · have hmem := hp.mem_branchesOf.1 ht
      obtain ⟨d, hd⟩ := Option.isSome_iff_exists.1 hmem.1
      exact hsplit d j (hp.mem_bodyOf.2 ⟨t, hj, hmem, hd⟩)
    · rw [hp.scope?_of_isBranch hbranch.1] at ht
      cases ht
  refine ⟨hpasses.expects?_eq hp hafter.node?_of_mem, ?_⟩
  obtain ⟨inside, rest, hsplits, hinside, hout, hway⟩ := hpasses
  rw [bodyFrom_eq_bodyOf hplanned hmove hgroup hleave hdecision] at hway
  refine ⟨inside, rest, hsplits, hinside, hout, ?_⟩
  rcases hway with ⟨hnil, hbefore, hcut⟩ | hall
  · refine .inl ⟨hnil, hbefore, ?_⟩
    match inside, hcut with
    | [], _ => exact ⟨v, rfl, .inr (.inr ⟨x, out, hleave, hp.inGroup_iff.2 (.inl hbranch)⟩)⟩
    | w :: ws, hcut =>
      refine ⟨(w :: ws).getLast (List.cons_ne_nil w ws), ?_, hcut _ ?_⟩
      · rw [List.getLast?_cons_cons]
        exact List.getLast?_eq_some_getLast _
      · exact List.getLast?_eq_some_getLast _
  · exact .inr hall

/-- Two groups of branches, of which the second hangs off the last node of the first. -/
def regrouped : String :=
  "~ 5 | split \x7b> 10\x7d\nTRUE_FLOW | add(1)\nFALSE_FLOW | add(2)\n"
    ++ "| TRUE_FLOW | add(3)\nFALSE_FLOW | add(4)\n| print"

set_option maxRecDepth 4000 in
/-- The decision of the split takes the walk through the first group along the second branch. -/
theorem Step.branches_are_exclusive_regrouped :
    ∃ before v after out, Program.aloneVisits regrouped = before ++ v :: after ∧ v.id = 1 ∧
      v.onward? (Program.aloneContext regrouped).plan = some (4, out) ∧ out.selector = some false ∧
      (∀ w ∈ after, ∀ t ∈ (Program.aloneContext regrouped).program.branchesOf v.id,
        w.node.scope = some t → (Program.aloneContext regrouped).program.expects? t = some false) ∧
      ∃ inside rest, after = inside ++ rest ∧
        executed inside <+: (Program.aloneContext regrouped).program.bodyOf v.id false := by
  have hlist : ((Program.aloneVisits regrouped).map fun w => (w.id,
      (w.onward? (Program.aloneContext regrouped).plan).map fun o => (o.1, o.2.selector))) =
      [(0, some (1, none))] ++ (1, some (4, some false)) :: [(4, some (5, some false)),
        (5, some (8, some false)), (8, some (9, some false)), (9, some (10, some false)),
        (10, none)] := by decide +kernel
  have hgroup : (Program.aloneContext regrouped).program.branchesOf 1 ≠ [] ∧
      ∀ d, ∀ j ∈ (Program.aloneContext regrouped).program.bodyOf 1 d,
        (Program.aloneContext regrouped).program.isSplit j = false := by decide +kernel
  obtain ⟨before, v, after, hvisits, -, hv⟩ := exists_split_of_map hlist
  obtain ⟨hid, hv⟩ := Prod.mk.injEq .. ▸ hv
  obtain ⟨⟨x, out⟩, hleave, hout⟩ := Option.map_eq_some_iff.1 hv
  obtain ⟨rfl, hselector⟩ : x = 4 ∧ out.selector = some false := Prod.mk.injEq .. ▸ hout
  rw [← hid] at hgroup
  obtain ⟨hexclusive, inside, rest, hsplits, -, -, hway⟩ :=
    Step.branches_are_exclusive (Session.engine {} []) regrouped (Program.aloneContext regrouped)
      rfl _ _ _ _ _ _ before after v 4 out false hvisits hleave hselector hgroup.1 hgroup.2
  refine ⟨before, v, after, out, hvisits, hid, hleave, hselector, hexclusive, inside, rest,
    hsplits, ?_⟩
  rcases hway with ⟨-, hbefore, -⟩ | ⟨hall, -⟩
  · exact hbefore
  · exact ⟨[], by rw [hall, List.append_nil]⟩

set_option maxRecDepth 4000 in
/-- The walk leaves the first group, of which it ran the whole body and nothing that fails or
ends the pipeline, for the second branch of the second group. The first node behind the first
group is another, and the walk never comes to it. -/
theorem Step.leaves_past_next_node :
    ((Program.aloneVisits regrouped).map fun w => (w.id, w.packet.selector, w.node.terminal)) =
      [(0, none, false), (1, none, false), (4, some false, false), (5, some false, false),
        (8, some false, false), (9, some false, false), (10, some false, true)] ∧
    (Program.aloneContext regrouped).program.branchesOf 1 = [2, 4] ∧
    (Program.aloneContext regrouped).program.bodyOf 1 true = [3] ∧
    (Program.aloneContext regrouped).program.bodyOf 1 false = [5] ∧
    (∀ d, ∀ j ∈ (Program.aloneContext regrouped).program.bodyOf 1 d,
      (Program.aloneContext regrouped).program.isSplit j = false) ∧
    (Program.aloneContext regrouped).program.afterGroup? 1 = some 6 := by
  decide +kernel

-- ============================================================================
-- Packets without a decision
-- ============================================================================

section

variable {ctx : RunContext σ} {anchors : Nat → Nat} {a taken other : Nat}

theorem branchesOf_sorted (p : Program) (a : Nat) : (p.branchesOf a).Pairwise (· < ·) :=
  List.pairwise_lt_range.filter _

theorem lt_of_branchesOf {p : Program} {i j : Nat} (hgroup : p.branchesOf a = [i, j]) : i < j := by
  have hsorted := branchesOf_sorted p a
  rw [hgroup] at hsorted
  simpa using hsorted

/-- Between two branches that are all of a group there is only the scope of the first. -/
theorem scope_between (hp : Layout ctx.program anchors)
    (hgroup : ctx.program.branchesOf a = [other, taken]) {j : Nat} (hj : other < j)
    (hjt : j < taken) : ctx.program.scope? j = some other := by
  have hmem : ∀ t, t ∈ ctx.program.branchesOf a → t = other ∨ t = taken := by
    intro t ht
    rw [hgroup] at ht
    simpa using ht
  have hother : other ∈ ctx.program.branchesOf a := by
    rw [hgroup]
    exact List.mem_cons_self
  have htaken : taken ∈ ctx.program.branchesOf a := by
    rw [hgroup]
    exact List.mem_cons_of_mem _ List.mem_cons_self
  have hao := hp.continues_of_member (.inl (hp.mem_branchesOf.1 hother))
  have hmember := hp.member_of_between (.inl (hp.mem_branchesOf.1 htaken))
    (Nat.lt_trans hao.2 hj) hjt
  rcases hmember with hbranch | ⟨t, hscope, ht⟩
  · rcases hmem j (hp.mem_branchesOf.2 hbranch) with rfl | rfl <;> omega
  · have htj := (hp.block j t hscope).2.2.2.1
    rcases hmem t (hp.mem_branchesOf.2 ht) with rfl | rfl
    · exact hscope
    · omega

/-- The first of two branches, passed over, is left for the second. -/
theorem skips_to_second (hp : Layout ctx.program anchors)
    (hgroup : ctx.program.branchesOf a = [other, taken]) {join : Option Nat}
    (hskips : ctx.program.Skips other join) : join = some taken := by
  have hlt := lt_of_branchesOf hgroup
  have htaken : taken ∈ ctx.program.branchesOf a := by
    rw [hgroup]
    exact List.mem_cons_of_mem _ List.mem_cons_self
  have hbranch := (hp.mem_branchesOf.1 htaken).1
  have hnot : ctx.program.scope? taken ≠ some other := by
    rw [hp.scope?_of_isBranch hbranch]
    exact nofun
  match join, hskips with
  | some k, ⟨hk, _, hout, hblock⟩ =>
    rcases Nat.lt_trichotomy k taken with hbefore | rfl | hbehind
    · exact absurd (scope_between hp hgroup hk hbefore) hout
    · rfl
    · exact absurd (hblock taken hlt hbehind) hnot
  | none, ⟨k, hk, hends, hblock⟩ =>
    exfalso
    rcases Nat.lt_trichotomy k taken with hbefore | rfl | hbehind
    · rw [(hp.block k other (scope_between hp hgroup hk hbefore)).1] at hends
      cases hends
    · rw [Program.continues_of_isBranch hbranch] at hends
      cases hends
    · exact hnot (hblock taken hlt hbehind)

/-- A branch that is reached with the other decision is passed over. -/
theorem passes_over_other (hctx : ctx.Planned anchors)
    (hgroup : ctx.program.branchesOf a = [other, taken]) {b : Bool}
    (hother : ctx.program.expects? other = some (!b)) {out : Packet} (hb : out.decision = b)
    {w : Visit} {rest : List Visit} (hroute : Route ctx other out (w :: rest)) :
    w.onward? ctx.plan = some (taken, out) := by
  obtain ⟨hid, rfl, hnode, hlawful, -⟩ := hroute.inv
  cases Visit.move hctx hnode hlawful with
  | failed hflow hnobranch hnone =>
    rw [hid, hother] at hnobranch
    cases hnobranch
  | passedOver e join he hdecision hskips hto =>
    rw [hid] at hskips
    rw [hto, skips_to_second hctx.layout hgroup hskips]
    rfl
  | handedOn q hflow hbranch hselector hto =>
    have := (hbranch (!b) (by rw [hid]; exact hother)).1
    rw [hb] at this
    cases b <;> cases this

/-- A route that starts at the first of two branches and passes over it never takes it. -/
theorem not_taken_of_passed (hctx : ctx.Planned anchors) {next : Nat} {out : Packet}
    {w : Visit} {rest : List Visit} (hroute : Route ctx other out (w :: rest))
    (honward : w.onward? ctx.plan = some (next, out)) :
    ∀ u ∈ w :: rest, u.id = other → u.packet = out := by
  intro u hu huo
  obtain ⟨hid, hpacket, hnode, hlawful, -⟩ := hroute.inv
  rcases List.mem_cons.1 hu with rfl | hu
  · exact hpacket
  · have hlt := Visit.lt_of_onward? hctx (Visit.move hctx hnode hlawful) honward
    have hle := (hroute.onward honward).le_of_mem hctx u hu
    omega

/-- A group of two is entered at the branch on the decision, or at the other one where that is the
first of the two. -/
theorem entered_at (hp : Layout ctx.program anchors) {x : Nat} {out : Packet} {b : Bool}
    (hgroup : ctx.program.branchesOf a = [taken, other] ∨
      ctx.program.branchesOf a = [other, taken])
    (hother : ctx.program.expects? other = some (!b)) (hb : out.decision = b)
    (hx : x ∈ ctx.program.branchesOf a)
    (hway : ctx.program.branchOn? a out.decision = some x ∨ x = a + 1) :
    x = taken ∨ (x = other ∧ ctx.program.branchesOf a = [other, taken]) := by
  have hmem : x = taken ∨ x = other := by
    rcases hgroup with h | h
    · simpa [h] using hx
    · simpa [h, or_comm] using hx
  rcases hmem with rfl | rfl
  · exact .inl rfl
  · refine .inr ⟨rfl, ?_⟩
    rcases hgroup with h | h
    · -- The other branch is reached only as the first one, from an anchor that was passed over.
      exfalso
      have hlt := lt_of_branchesOf h
      have htaken : taken ∈ ctx.program.branchesOf a := by
        rw [h]
        exact List.mem_cons_self
      have hanchor := hp.mem_branchesOf.1 htaken
      have hbefore := (hp.anchored taken hanchor.1).1
      rcases hway with hon | rfl
      · have := (branchOn?_eq_some hon).2.1
        rw [hb, hother] at this
        cases b <;> cases this
      · omega
    · exact h

/-- Whoever entered a group of two so and comes to the other branch with the other decision came
to the branch taken first. -/
theorem taken_before_other (hctx : ctx.Planned anchors) {x : Nat} {out : Packet} {b : Bool}
    (hstart : x = taken ∨ (x = other ∧ ctx.program.branchesOf a = [other, taken]))
    (htaken : ctx.program.expects? taken = some b)
    (hother : ctx.program.expects? other = some (!b)) (hb : out.decision = b)
    {visits : List Visit} (hroute : Route ctx x out visits) {u : Visit} (hu : u ∈ visits)
    (huo : u.id = other) (hdecision : u.packet.decision = !b) : taken < other := by
  rcases hstart with rfl | ⟨rfl, h⟩
  · have hle := hroute.le_of_mem hctx u hu
    have hne : x ≠ other := by
      rintro rfl
      rw [htaken] at hother
      cases b <;> cases hother
    omega
  · exfalso
    match visits, hu with
    | w :: ws, hu =>
      have honward := passes_over_other hctx h hother hb hroute
      rw [not_taken_of_passed hctx hroute honward u hu huo, hb] at hdecision
      cases b <;> cases hdecision

end

/-- The branches of a group of two are entered as the last split decided that the packet came
through, or else by the truth of its value. The other branch is entered as well only if it is the
second, and the packet reaches it with the other decision. -/
theorem Step.branch_follows_decision (engine : Engine σ) (source : String) (ctx : RunContext σ)
    (hctx : ctx = engine.context (.parse source)) (notify : String → Value → Exec σ Unit)
    (budget start : Nat) (seed : Option Value) (r : Run σ) (before after : List (Station σ))
    (s : Station σ) (x : Nat) (out : Packet) (b : Bool) (taken other : Nat)
    (hstations : stations ctx notify budget start {} seed r = before ++ s :: after)
    (hleave : s.visit.onward? ctx.plan = some (x, out))
    (hgroup : ctx.program.branchesOf s.visit.id = [taken, other] ∨
      ctx.program.branchesOf s.visit.id = [other, taken])
    (htaken : ctx.program.expects? taken = some b) (hother : ctx.program.expects? other = some (!b))
    (hdecision : (decided? ctx (before ++ [s])).getD out.value.isTruthy = b) :
    (x = taken ∨
      (x = other ∧ ∀ w ∈ after.head?, w.visit.onward? ctx.plan = some (taken, out))) ∧
    ∀ w ∈ after, w.visit.node.scope = some other →
      taken < other ∧ ∃ between u rest, after = between ++ u :: rest ∧ u.visit.id = other ∧
        (decided? ctx (before ++ s :: between)).getD u.visit.packet.value.isTruthy = !b := by
  obtain ⟨anchors, hplanned⟩ := engine.planned_parse source
  rw [← hctx] at hplanned
  have hp := hplanned.layout
  have hroute := route_stations hstations
  rw [List.map_append, List.map_cons] at hroute
  obtain ⟨-, -, hnode, hlawful, -⟩ := hroute.of_append.inv
  have hafter : Route ctx x out (after.map Station.visit) := hroute.of_append.onward hleave
  have hsome : ctx.program.branchesOf s.visit.id ≠ [] := by
    rcases hgroup with h | h <;> rw [h] <;> exact List.cons_ne_nil _ _
  obtain ⟨hx, hway⟩ := enters_group hplanned (Visit.move hplanned hnode hlawful) hsome hleave
  have hb : out.decision = b := by
    unfold Packet.decision
    rw [selector_eq_decided? hplanned hstations hleave]
    exact hdecision
  have hstart := entered_at hp hgroup hother hb hx (hway.imp_right And.left)
  refine ⟨?_, fun w hw hscope => ?_⟩
  · rcases hstart with hx' | ⟨rfl, h⟩
    · exact .inl hx'
    · refine .inr ⟨rfl, fun w hw => ?_⟩
      match after, hw with
      | u :: us, hw =>
        cases hw
        exact passes_over_other hplanned h hother hb hafter
  · have hw' : w.visit ∈ after.map Station.visit := List.mem_map_of_mem hw
    have hscope? := Visit.scope?_eq (hafter.node?_of_mem w.visit hw')
    have hoff : ctx.program.scope? x ≠ some other := by
      rw [hp.scope?_of_isBranch (hp.mem_branchesOf.1 hx).1]
      exact nofun
    obtain ⟨u', hu', huo, htook⟩ :=
      hafter.took_branch hplanned hoff w.visit hw' (by rw [hscope?, hscope])
    rw [hother] at htook
    have hopposite : u'.packet.decision = !b := (Option.some.inj htook).symm
    refine ⟨taken_before_other hplanned hstart htaken hother hb hafter hu' huo hopposite, ?_⟩
    obtain ⟨u, hu, rfl⟩ := List.mem_map.1 hu'
    obtain ⟨between, rest, rfl⟩ := List.append_of_mem hu
    refine ⟨between, u, rest, rfl, huo, ?_⟩
    rw [← List.cons_append, ← List.append_assoc] at hstations
    rw [← selector_arriving hplanned hstations]
    exact hopposite

/-- A value that decides anew behind a split: the split's decision stands. -/
def staleSelector : String :=
  "~ 5 | split \x7b> 10\x7d | add(1)\nTRUE_FLOW | add(10)\nFALSE_FLOW | add(20)"

/-- A first branch that makes its value false. -/
def flippedValue : String :=
  "~ 5\nTRUE_FLOW | subtract(5)\nFALSE_FLOW | add(100)"

/-- Two splits in front of a group, and a third in its first branch. -/
def resplit : String :=
  "~ 5 | split \x7b> 10\x7d | split \x7b> 3\x7d | add(1)\n"
    ++ "TRUE_FLOW | split \x7b> 100\x7d\nFALSE_FLOW | add(20)"

set_option maxRecDepth 4000 in
/-- The first branch is entered on what the last of the splits in front of the group decided, and
the second on what the split in the first one did. -/
theorem Step.branch_follows_decision_resplit :
    ∃ before s after out, Program.aloneStations resplit = before ++ s :: after ∧
      s.visit.id = 3 ∧ s.visit.onward? (Program.aloneContext resplit).plan = some (4, out) ∧
      decided? (Program.aloneContext resplit) (before ++ [s]) = some true ∧
      ∀ w ∈ after, w.visit.node.scope = some 6 → 4 < 6 ∧
        ∃ between u rest, after = between ++ u :: rest ∧ u.visit.id = 6 ∧
          (decided? (Program.aloneContext resplit) (before ++ s :: between)).getD
            u.visit.packet.value.isTruthy = !true := by
  have hlist : ((Program.aloneStations resplit).map fun s => (s.visit.id,
      (s.visit.onward? (Program.aloneContext resplit).plan).map Prod.fst)) =
      [(0, some 1), (1, some 2), (2, some 3)] ++ (3, some 4) :: [(4, some 5), (5, some 6),
        (6, some 7), (7, none)] := by decide +kernel
  have hgroup : (Program.aloneContext resplit).program.branchesOf 3 = [4, 6] ∧
      (Program.aloneContext resplit).program.expects? 4 = some true ∧
      (Program.aloneContext resplit).program.expects? 6 = some (!true) := by decide +kernel
  have hdecided : decided? (Program.aloneContext resplit)
      ((Program.aloneStations resplit).take 4) = some true := by decide +kernel
  obtain ⟨before, s, after, hstations, htake, hs⟩ := exists_split_of_map hlist
  obtain ⟨hid, hs⟩ := Prod.mk.injEq .. ▸ hs
  obtain ⟨⟨x, out⟩, hleave, rfl⟩ := Option.map_eq_some_iff.1 hs
  replace hdecided : decided? (Program.aloneContext resplit) (before ++ [s]) = some true := by
    rw [htake]
    exact hdecided
  rw [← hid] at hgroup
  refine ⟨before, s, after, out, hstations, hid, hleave, hdecided, ?_⟩
  exact (Step.branch_follows_decision (Session.engine {} []) resplit
    (Program.aloneContext resplit) rfl _ _ _ _ _ before after s 4 out true 4 6 hstations hleave
    (.inl hgroup.1) hgroup.2.1 hgroup.2.2 (by rw [hdecided]; rfl)).2

set_option maxRecDepth 4000 in
/-- Behind a split that decided against it, a true value does not enter the branch on true; and
without a split, a value that the first branch makes false runs the scopes of both branches. -/
theorem Step.truth_alone_does_not_decide :
    (((Program.aloneVisits staleSelector).map fun w => (w.id, w.packet.value.isTruthy)) =
        [(0, false), (1, true), (2, true), (5, true), (6, true)] ∧
      (Program.aloneContext staleSelector).program.branchesOf 2 = [3, 5] ∧
      (Program.aloneContext staleSelector).program.isSplit 2 = false ∧
      (Program.aloneContext staleSelector).program.expects? 5 = some false) ∧
    (Program.aloneVisits flippedValue).map (fun w => (w.id, w.packet.value.isTruthy)) =
      [(0, false), (1, true), (2, true), (3, false), (4, false)] ∧
    (Program.aloneContext flippedValue).program.branchesOf 0 = [1, 3] ∧
    (Program.aloneContext flippedValue).program.isSplit 0 = false ∧
    (Program.aloneContext flippedValue).program.bodyOf 0 true = [2] ∧
    (Program.aloneContext flippedValue).program.bodyOf 0 false = [4] := by
  decide +kernel

end Sluice
