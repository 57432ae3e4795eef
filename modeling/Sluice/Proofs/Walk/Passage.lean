/-
  Sluice.Proofs.Walk.Passage

  The way of a packet with a decision through a group of branches. It runs the scopes of the
  branches on that decision, all of them and in order, unless it is cut short, and then leaves
  the group. The proof follows the visits one by one: each is cut short, goes on within the
  group, or leaves it, and each runs exactly what the body has at its place.
-/

import Sluice.Proofs.Walk.Routes

namespace Sluice

variable {σ : Type}

-- ============================================================================
-- Bodies
-- ============================================================================

/-- The visited nodes that are in a scope, in order. -/
def executed (visits : List Visit) : List Nat :=
  (visits.filter fun w => w.node.scope.isSome).map fun w => w.id

/-- What is left, from `x` on, of the scopes of a group on a decision. -/
def Program.bodyFrom (p : Program) (a : Nat) (b : Bool) (x : Nat) : List Nat :=
  (p.bodyOf a b).filter fun j => decide (x ≤ j)

theorem executed_cons (v : Visit) (rest : List Visit) :
    executed (v :: rest) = executed [v] ++ executed rest := by
  unfold executed
  rw [← List.map_append, ← List.filter_append, List.singleton_append]

/-- What is left from an element on is the element and what is left behind it. -/
theorem filter_le_eq_cons {l : List Nat} (hl : l.Pairwise (· < ·)) {x : Nat} (hx : x ∈ l) :
    l.filter (fun j => decide (x ≤ j)) = x :: l.filter fun j => decide (x + 1 ≤ j) := by
  induction l with
  | nil => cases hx
  | cons y rest ih =>
    obtain ⟨hy, hrest⟩ := List.pairwise_cons.1 hl
    rcases List.mem_cons.1 hx with rfl | hx
    · have hle : ∀ j ∈ rest, decide (x ≤ j) = decide (x + 1 ≤ j) := by
        intro j hj
        have := hy j hj
        exact decide_eq_decide.2 (by omega)
      rw [List.filter_cons_of_pos (by simp), List.filter_cons_of_neg (by simp),
        List.filter_congr hle]
    · have := hy x hx
      rw [List.filter_cons_of_neg (by simp; omega), List.filter_cons_of_neg (by simp; omega)]
      exact ih hrest hx

namespace Layout

variable {p : Program} {anchors : Nat → Nat} {a : Nat} {b : Bool}

theorem mem_bodyOf (h : Layout p anchors) {j : Nat} :
    j ∈ p.bodyOf a b ↔ ∃ t, p.scope? j = some t ∧ (p.isBranch t ∧ anchors t = a) ∧
      p.expects? t = some b := by
  unfold Program.bodyOf
  rw [List.mem_filter, List.mem_range, Option.any_eq_true]
  simp only [Bool.and_eq_true, List.contains_iff_mem, h.mem_branchesOf, beq_iff_eq]
  constructor
  · exact And.right
  · rintro ⟨t, hscope, ht⟩
    exact ⟨Program.lt_size_of_scope? hscope, t, hscope, ht⟩

/-- Nodes without a part in the body can be left out. -/
theorem bodyFrom_eq {x y : Nat} (hxy : x ≤ y)
    (hskip : ∀ j, x ≤ j → j < y → j ∉ p.bodyOf a b) : p.bodyFrom a b x = p.bodyFrom a b y := by
  refine List.filter_congr fun j hj => decide_eq_decide.2 ⟨fun hxj => ?_, fun hyj => ?_⟩
  · rcases Nat.lt_or_ge j y with hlt | hge
    · exact absurd hj (hskip j hxj hlt)
    · exact hge
  · omega

/-- A visit to a node of the group runs what the body has there. -/
theorem bodyFrom_visit (h : Layout p anchors) {v : Visit} (hscope : p.scope? v.id = v.node.scope)
    (hmember : p.Member anchors a v.id)
    (hin : ∀ t, p.scope? v.id = some t → p.expects? t = some b) :
    p.bodyFrom a b v.id = executed [v] ++ p.bodyFrom a b (v.id + 1) := by
  match hv : v.node.scope with
  | none =>
    rw [hv] at hscope
    have hnot : v.id ∉ p.bodyOf a b := by
      intro hmem
      obtain ⟨t, ht, -⟩ := h.mem_bodyOf.1 hmem
      rw [hscope] at ht
      cases ht
    have hempty : executed [v] = [] := by simp [executed, hv]
    rw [hempty, List.nil_append]
    refine bodyFrom_eq (Nat.le_succ _) fun j hj hjv => ?_
    obtain rfl : j = v.id := by omega
    exact hnot
  | some t =>
    rw [hv] at hscope
    have hone : executed [v] = [v.id] := by simp [executed, hv]
    have hmem : v.id ∈ p.bodyOf a b := by
      rcases hmember with ⟨hbranch, -⟩ | ⟨s, hs, hbranch⟩
      · have := (h.block v.id t hscope).2.1
        rw [hbranch] at this
        cases this
      · exact h.mem_bodyOf.2 ⟨s, hs, hbranch, hin s hs⟩
    rw [hone, List.singleton_append]
    exact filter_le_eq_cons (List.pairwise_lt_range.filter _) hmem

/-- Behind a node that is not of the group there is no node of the group. -/
theorem not_member_of_le (h : Layout p anchors) {j k : Nat} (hk : ¬p.Member anchors a k)
    (hak : a < k) (hkj : k ≤ j) : ¬p.Member anchors a j := by
  intro hj
  rcases Nat.lt_or_eq_of_le hkj with hlt | rfl
  · exact hk (h.member_of_between hj hak hlt)
  · exact hk hj

/-- Behind the group nothing of its body is left. -/
theorem bodyFrom_eq_nil (h : Layout p anchors) {k : Nat} (hk : ¬p.Member anchors a k)
    (hak : a < k) : p.bodyFrom a b k = [] := by
  refine List.filter_eq_nil_iff.2 fun j hj => ?_
  obtain ⟨t, hscope, ht, -⟩ := h.mem_bodyOf.1 hj
  rw [decide_eq_true_eq]
  exact fun hkj => h.not_member_of_le hk hak hkj (.inr ⟨t, hscope, ht⟩)

end Layout

-- ============================================================================
-- The way through a group
-- ============================================================================

/-- A visit at which a walk ends within a group: the node fails, it ends the pipeline, or the
walk is refused at the next node of the group. -/
def Visit.CutShort (p : Program) (plan : Plan) (a : Nat) (w : Visit) : Prop :=
  w.flow = none ∨ w.node.terminal = true ∨
    ∃ next packet, w.onward? plan = some (next, packet) ∧ p.inGroup a next

/-- Where a packet with a decision goes on, when `last` is the last node of the group that it
ran: behind the group, or at a branch that hangs off this last node. -/
def Program.exit? (p : Program) (a last : Nat) (b : Bool) : Option Nat :=
  if p.expects? last = some (!b) then p.afterGroup? a
  else (p.branchOn? last b).or (p.afterGroup? a)

/-- The way of a packet with a decision through a group, from `x` on. The visits within the
group come first. Either the walk is cut short among them, and ran a first part of the body, or
it ran the whole body and went on behind the group. -/
def Passes (ctx : RunContext σ) (a : Nat) (b : Bool) (x : Nat) (visits : List Visit) : Prop :=
  ∃ inside rest, visits = inside ++ rest ∧ (∀ w ∈ inside, ctx.program.inGroup a w.id) ∧
    (∀ w ∈ rest, ctx.program.inGroup a w.id = false) ∧
    ((rest = [] ∧ executed inside <+: ctx.program.bodyFrom a b x ∧
        ∀ w ∈ inside.getLast?, w.CutShort ctx.program ctx.plan a) ∨
      (executed inside = ctx.program.bodyFrom a b x ∧ ∃ w, inside.getLast? = some w ∧
        (w.onward? ctx.plan).map Prod.fst = ctx.program.exit? a w.id b ∧
        ∀ u ∈ rest.head?, (w.onward? ctx.plan).map Prod.fst = some u.id))

section

variable {ctx : RunContext σ} {anchors : Nat → Nat} {a : Nat} {b : Bool} {v : Visit}

theorem passes_nil (x : Nat) : Passes ctx a b x [] :=
  ⟨[], [], rfl, List.forall_mem_nil _, List.forall_mem_nil _,
    .inl ⟨rfl, List.nil_prefix, fun _ h => nomatch h⟩⟩

/-- The walk is cut short here. -/
theorem passes_cut (hgroup : ctx.program.inGroup a v.id)
    (hbody : executed [v] <+: ctx.program.bodyFrom a b v.id)
    (hcut : v.CutShort ctx.program ctx.plan a) : Passes ctx a b v.id [v] := by
  refine ⟨[v], [], rfl, fun w hw => ?_, List.forall_mem_nil _, .inl ⟨rfl, hbody, fun w hw => ?_⟩⟩
  · rw [List.mem_singleton.1 hw]
    exact hgroup
  · cases hw
    exact hcut

/-- The walk leaves the group here. -/
theorem passes_exit {rest : List Visit} (hgroup : ctx.program.inGroup a v.id)
    (hbody : executed [v] = ctx.program.bodyFrom a b v.id)
    (hexit : (v.onward? ctx.plan).map Prod.fst = ctx.program.exit? a v.id b)
    (hout : ∀ w ∈ rest, ctx.program.inGroup a w.id = false)
    (hhead : ∀ u ∈ rest.head?, (v.onward? ctx.plan).map Prod.fst = some u.id) :
    Passes ctx a b v.id (v :: rest) := by
  refine ⟨[v], rest, rfl, fun w hw => ?_, hout, .inr ⟨hbody, v, rfl, hexit, hhead⟩⟩
  rw [List.mem_singleton.1 hw]
  exact hgroup

/-- The walk goes on within the group. -/
theorem passes_cons {next : Nat} {packet : Packet} {rest : List Visit}
    (hgroup : ctx.program.inGroup a v.id)
    (hbody : ctx.program.bodyFrom a b v.id = executed [v] ++ ctx.program.bodyFrom a b next)
    (honward : v.onward? ctx.plan = some (next, packet)) (hnext : ctx.program.inGroup a next)
    (h : Passes ctx a b next rest) : Passes ctx a b v.id (v :: rest) := by
  obtain ⟨inside, beyond, rfl, hinside, hout, hway⟩ := h
  refine ⟨v :: inside, beyond, rfl, fun w hw => ?_, hout, ?_⟩
  · rcases List.mem_cons.1 hw with rfl | hw
    · exact hgroup
    · exact hinside w hw
  · rcases hway with ⟨hrest, hbefore, hcut⟩ | ⟨hall, w, hlast, hexit, hhead⟩
    · refine .inl ⟨hrest, ?_, fun w hw => ?_⟩
      · rw [executed_cons, hbody]
        exact (List.prefix_append_right_inj _).2 hbefore
      · match inside, hcut with
        | [], _ =>
          cases hw
          exact .inr (.inr ⟨next, packet, honward, hnext⟩)
        | u :: us, hcut =>
          rw [List.getLast?_cons_cons] at hw
          exact hcut w hw
    · refine .inr ⟨?_, w, ?_, hexit, hhead⟩
      · rw [executed_cons, hbody, hall]
      · match inside, hlast with
        | [], hlast => cases hlast
        | u :: us, hlast =>
          rw [List.getLast?_cons_cons]
          exact hlast

/-- Of a branch that is passed over, nothing runs. -/
theorem bodyFrom_passedOver (hp : Layout ctx.program anchors)
    (hnode : ctx.program.node? v.id = some v.node)
    (hexpects : ctx.program.expects? v.id = some (!b)) {k : Nat} (hk : v.id < k)
    (hblock : ∀ j, v.id < j → j < k → ctx.program.scope? j = some v.id) :
    ctx.program.bodyFrom a b v.id = executed [v] ++ ctx.program.bodyFrom a b k := by
  have hbranch := Program.isBranch_of_expects? hexpects
  have hscope : v.node.scope = none := by
    rw [← Visit.scope?_eq hnode]
    exact hp.scope?_of_isBranch hbranch
  have hempty : executed [v] = [] := by simp [executed, hscope]
  rw [hempty, List.nil_append]
  refine Layout.bodyFrom_eq (Nat.le_of_lt hk) fun j hj hjk hmem => ?_
  obtain ⟨t, ht, -, hb⟩ := hp.mem_bodyOf.1 hmem
  rcases Nat.lt_or_eq_of_le hj with hlt | rfl
  · rw [hblock j hlt hjk] at ht
    cases ht
    rw [hexpects] at hb
    cases b <;> cases hb
  · rw [Visit.scope?_eq hnode, hscope] at ht
    cases ht

/-- A branch of the group that is passed over is left within the group or for the node after. -/
theorem skips_within (hp : Layout ctx.program anchors) (hbranch : ctx.program.isBranch v.id)
    (ha : anchors v.id = a) {join : Option Nat} (hskips : ctx.program.Skips v.id join) :
    ∃ k, v.id < k ∧ (∀ j, v.id < j → j < k → ctx.program.scope? j = some v.id) ∧
      (join = some k ∧ ctx.program.Member anchors a k ∨
        join = ctx.program.afterGroup? a ∧ ¬ctx.program.Member anchors a k ∧
          ∀ y ∈ join, y = k) := by
  -- The node before the target is the branch or in its scope, so it is of the group.
  have hlast : ∀ k, v.id < k → (∀ j, v.id < j → j < k → ctx.program.scope? j = some v.id) →
      ¬ctx.program.Member anchors a k →
      ctx.program.afterGroup? a = ctx.program.follower? (k - 1) := by
    intro k hk hblock hnot
    have hmember : ctx.program.Member anchors a (k - 1) := by
      by_cases heq : k - 1 = v.id
      · rw [heq]
        exact .inl ⟨hbranch, ha⟩
      · exact .inr ⟨v.id, hblock (k - 1) (by omega) (by omega), hbranch, ha⟩
    refine hp.afterGroup?_eq (hp.continues_of_member hmember).2 hmember ?_
    rw [show k - 1 + 1 = k by omega]
    exact hnot
  match join, hskips with
  | some k, ⟨hk, hcontinues, _, hblock⟩ =>
    refine ⟨k, hk, hblock, ?_⟩
    by_cases hmember : ctx.program.Member anchors a k
    · exact .inl ⟨rfl, hmember⟩
    · refine .inr ⟨?_, hmember, fun y hy => by cases hy; rfl⟩
      rw [hlast k hk hblock hmember]
      unfold Program.follower?
      rw [show k - 1 + 1 = k by omega, if_pos hcontinues]
  | none, ⟨k, hk, hends, hblock⟩ =>
    have hnot : ¬ctx.program.Member anchors a k := by
      intro hmember
      rw [(hp.continues_of_member hmember).1] at hends
      cases hends
    refine ⟨k, hk, hblock, .inr ⟨?_, hnot, fun y hy => by cases hy⟩⟩
    rw [hlast k hk hblock hnot]
    unfold Program.follower?
    rw [show k - 1 + 1 = k by omega, hends]
    rfl

/-- Within a group nothing hangs off a node but its last one. -/
theorem follows_within (hp : Layout ctx.program anchors) {x : Nat}
    (hx : ctx.program.Member anchors a x) (hnext : ctx.program.Member anchors a (x + 1))
    (d : Bool) :
    (ctx.program.branchOn? x d).or (ctx.program.follower? x) = some (x + 1) := by
  have hax := (hp.continues_of_member hx).2
  have hnone : ctx.program.branchesOf x = [] := by
    refine List.eq_nil_iff_forall_not_mem.2 fun t ht => ?_
    obtain ⟨hbranch, hanchor⟩ := hp.mem_branchesOf.1 ht
    obtain ⟨hfirst, hx'⟩ := hp.first_branch hbranch hanchor
    rcases hnext with ⟨-, ha⟩ | ⟨s, hscope, -⟩
    · omega
    · rw [hp.scope?_of_isBranch hfirst] at hscope
      cases hscope
  unfold Program.branchOn? Program.follower?
  rw [hnone, if_pos (hp.continues_of_member hnext).1]
  rfl

/-- Visits behind the end of a group are not of it. -/
theorem beyond_group (hctx : ctx.Planned anchors) {k next : Nat} {packet : Packet}
    {rest : List Visit} (hroute : Route ctx next packet rest)
    (hk : ¬ctx.program.Member anchors a k) (hak : a < k) (hnext : k ≤ next) :
    ∀ w ∈ rest, ctx.program.inGroup a w.id = false := by
  intro w hw
  have hle := hroute.le_of_mem hctx w hw
  refine Bool.eq_false_iff.2 fun hin => ?_
  exact hctx.layout.not_member_of_le hk hak (Nat.le_trans hnext hle)
    (hctx.layout.inGroup_iff.1 hin)

/-- The first visit of a route is at its start. -/
theorem head_of_route {next : Nat} {packet : Packet} {rest : List Visit}
    (hroute : Route ctx next packet rest) : ∀ u ∈ rest.head?, u.id = next := by
  intro u hu
  match rest, hroute with
  | [], _ => cases hu
  | w :: ws, hroute =>
    cases hu
    exact hroute.inv.1

/-- A visit that leads behind a node that is not of the group leaves the group. -/
theorem passes_leave (hctx : ctx.Planned anchors) {rest : List Visit} {k : Nat}
    (hgroup : ctx.program.inGroup a v.id) (hbody : executed [v] = ctx.program.bodyFrom a b v.id)
    (hexit : (v.onward? ctx.plan).map Prod.fst = ctx.program.exit? a v.id b)
    (hnot : ¬ctx.program.Member anchors a k) (hak : a < k)
    (hbehind : ∀ next out, v.onward? ctx.plan = some (next, out) → k ≤ next)
    (hrest : (v.onward? ctx.plan = none ∧ rest = []) ∨
      ∃ next out, v.onward? ctx.plan = some (next, out) ∧ Route ctx next out rest) :
    Passes ctx a b v.id (v :: rest) := by
  rcases hrest with ⟨-, rfl⟩ | ⟨next, out, honward, hroute⟩
  · exact passes_exit hgroup hbody hexit (List.forall_mem_nil _) fun u hu => by cases hu
  · have hnext := hbehind next out honward
    refine passes_exit hgroup hbody hexit (beyond_group hctx hroute hnot hak hnext) fun u hu => ?_
    rw [honward, head_of_route hroute u hu]
    rfl

/-- A branch that is passed over takes the walk further through the group, or out of it. -/
theorem passes_of_passedOver (hctx : ctx.Planned anchors) {rest : List Visit}
    (hnode : ctx.program.node? v.id = some v.node)
    (hv : ctx.program.Member anchors a v.id) (hexpects : ctx.program.expects? v.id = some (!b))
    {join : Option Nat} (hskips : ctx.program.Skips v.id join)
    (hto : v.onward? ctx.plan = join.map fun k => (k, v.packet))
    (hrest : (v.onward? ctx.plan = none ∧ rest = []) ∨
      ∃ next out, v.onward? ctx.plan = some (next, out) ∧ Route ctx next out rest)
    (ih : ∀ next, v.onward? ctx.plan = some (next, v.packet) →
      ctx.program.Member anchors a next → Passes ctx a b next rest) :
    Passes ctx a b v.id (v :: rest) := by
  have hp := hctx.layout
  have hbranch := Program.isBranch_of_expects? hexpects
  have ha : anchors v.id = a := by
    rcases hv with ⟨-, ha⟩ | ⟨t, hscope, -⟩
    · exact ha
    · rw [hp.scope?_of_isBranch hbranch] at hscope
      cases hscope
  have hgroup := hp.inGroup_iff.2 hv
  obtain ⟨k, hk, hblock, hway⟩ := skips_within hp hbranch ha hskips
  have hbody := bodyFrom_passedOver (a := a) hp hnode hexpects hk hblock
  rcases hway with ⟨rfl, hmember⟩ | ⟨hafter, hnot, hy⟩
  · exact passes_cons hgroup hbody hto (hp.inGroup_iff.2 hmember) (ih k hto hmember)
  · have hak : a < k := Nat.lt_trans (hp.continues_of_member hv).2 hk
    rw [hp.bodyFrom_eq_nil hnot hak, List.append_nil] at hbody
    have hexit : (v.onward? ctx.plan).map Prod.fst = ctx.program.exit? a v.id b := by
      unfold Program.exit?
      rw [if_pos hexpects, hto, ← hafter, Option.map_map]
      exact Option.map_id'
    refine passes_leave hctx hgroup hbody.symm hexit hnot hak (fun next out honward => ?_) hrest
    rw [hto] at honward
    obtain ⟨y, hyto, heq⟩ := Option.map_eq_some_iff.1 honward
    cases heq
    exact Nat.le_of_eq (hy _ hyto).symm

/-- A node that hands a packet with the decision on takes the walk further through the group, or
out of it. -/
theorem passes_of_handedOn (hctx : ctx.Planned anchors) {rest : List Visit} {out : Packet}
    (hmove : v.Move ctx.program ctx.plan) (hnode : ctx.program.node? v.id = some v.node)
    (hv : ctx.program.Member anchors a v.id)
    (hin : ∀ t, ctx.program.scope? v.id = some t → ctx.program.expects? t = some b)
    (hexpects : ctx.program.expects? v.id ≠ some (!b)) (hout : out.selector = some b)
    (hto : v.onward? ctx.plan = ((ctx.program.branchOn? v.id out.decision).or
      (ctx.program.follower? v.id)).map fun k => (k, out))
    (hrest : (v.onward? ctx.plan = none ∧ rest = []) ∨
      ∃ next out, v.onward? ctx.plan = some (next, out) ∧ Route ctx next out rest)
    (ih : v.onward? ctx.plan = some (v.id + 1, out) →
      ctx.program.Member anchors a (v.id + 1) → Passes ctx a b (v.id + 1) rest) :
    Passes ctx a b v.id (v :: rest) := by
  have hp := hctx.layout
  have hgroup := hp.inGroup_iff.2 hv
  have hbody := hp.bodyFrom_visit (Visit.scope?_eq hnode) hv hin
  have hdecision : out.decision = b := by
    unfold Packet.decision
    rw [hout]
    rfl
  by_cases hmember : ctx.program.Member anchors a (v.id + 1)
  · rw [follows_within hp hv hmember, Option.map_some] at hto
    exact passes_cons hgroup hbody hto (hp.inGroup_iff.2 hmember) (ih hto hmember)
  · have hav := (hp.continues_of_member hv).2
    have hak : a < v.id + 1 := by omega
    rw [hp.bodyFrom_eq_nil hmember hak, List.append_nil] at hbody
    have hexit : (v.onward? ctx.plan).map Prod.fst = ctx.program.exit? a v.id b := by
      unfold Program.exit?
      rw [if_neg hexpects, hto, hdecision, hp.afterGroup?_eq hav hv hmember, Option.map_map]
      exact Option.map_id'
    exact passes_leave hctx hgroup hbody.symm hexit hmember hak
      (fun next q honward => Visit.lt_of_onward? hctx hmove honward) hrest

/-- A packet that carries a decision passes through a group. The induction is on the visits; it
is carried by the decision, which no node of the group changes, and by the start, which is not
in the scope of a branch on the other decision. -/
theorem passes_of_route (hctx : ctx.Planned anchors)
    (hsplit : ∀ j t, ctx.program.scope? j = some t → t ∈ ctx.program.branchesOf a →
      ctx.program.isSplit j = false) {x : Nat} {packet : Packet} {visits : List Visit}
    (hroute : Route ctx x packet visits) (hx : ctx.program.Member anchors a x)
    (hselector : packet.selector = some b)
    (hin : ∀ t, ctx.program.scope? x = some t → ctx.program.expects? t = some b) :
    Passes ctx a b x visits := by
  have hp := hctx.layout
  induction visits generalizing x packet with
  | nil => exact passes_nil x
  | cons v rest ih =>
    obtain ⟨rfl, rfl, hnode, hlawful, hrest⟩ := hroute.inv
    have hmove := Visit.move hctx hnode hlawful
    have hbody := hp.bodyFrom_visit (Visit.scope?_eq hnode) hx hin
    have hdecision : v.packet.decision = b := by
      unfold Packet.decision
      rw [hselector]
      rfl
    have hnosplit : ctx.program.isSplit v.id = false := by
      rcases hx with ⟨hbranch, -⟩ | ⟨t, hscope, ht⟩
      · exact Program.isSplit_of_isBranch hbranch
      · exact hsplit v.id t hscope (hp.mem_branchesOf.2 ht)
    -- Behind the visit the induction goes on, wherever in the group it leads.
    have hnext : ∀ next out, v.onward? ctx.plan = some (next, out) →
        ctx.program.Member anchors a next → Passes ctx a b next rest := by
      intro next out honward hmember
      refine ih (hroute.onward honward) hmember ?_ ?_
      · rw [Visit.selector_onward? hmove honward (hp.continues_of_member hx).1 hnosplit]
        exact hselector
      · intro t ht
        rcases Visit.enters_scope hctx hmove honward ht with hscope | ⟨-, htaken⟩
        · exact hin t hscope
        · rw [htaken, hdecision]
    have hcut : v.CutShort ctx.program ctx.plan a → v.onward? ctx.plan = none →
        Passes ctx a b v.id (v :: rest) := by
      intro hcut hnone
      rcases hrest with ⟨-, rfl⟩ | ⟨next, out, honward, -⟩
      · exact passes_cut (hp.inGroup_iff.2 hx) (hbody ▸ List.prefix_append _ _) hcut
      · rw [hnone] at honward
        cases honward
    cases hmove with
    | failed hflow hbranch hnone => exact hcut (.inl hflow) hnone
    | passedOver e join he hnot hskips hto =>
      have hexpects : ctx.program.expects? v.id = some (!b) := by
        rw [he, ← hdecision, hnot, Bool.not_not]
      exact passes_of_passedOver hctx hnode hx hexpects hskips hto hrest
        fun next honward hmember => hnext next v.packet honward hmember
    | handedOn out hflow hbranch hkeeps hto =>
      have hout : out.selector = some b := by
        rw [hkeeps (hp.continues_of_member hx).1 hnosplit]
        exact hselector
      by_cases hterminal : v.node.terminal = true
      · rw [if_pos hterminal] at hto
        exact hcut (.inr (.inl hterminal)) hto
      · rw [if_neg hterminal] at hto
        refine passes_of_handedOn hctx (Visit.move hctx hnode hlawful) hnode hx hin ?_ hout hto
          hrest fun honward hmember => hnext _ out honward hmember
        intro he
        have := (hbranch _ he).1
        rw [hdecision] at this
        cases b <;> cases this

end

end Sluice
