/-
  Sluice.Proofs.Plan.Groups

  Groups of branches in a plan. Which node a branch hangs off is read off the graph: it is the
  first node that leads to it. In a graph that is laid out, a run that leaves a node goes to the
  first branch that hangs off the node and continues on the packet's decision, or else to the
  node that follows; and a branch that is passed over is left for the first node behind its
  scope.
-/

import Sluice.Proofs.Program.Layout

namespace Sluice

namespace Program

/-- The node that a branch hangs off: the first that leads to it. -/
def anchor? (p : Program) (t : Nat) : Option Nat :=
  (List.range p.nodes.size).find? fun i => (p.pipeTargets i).contains t

/-- The branches that hang off a node, in order. -/
def branchesOf (p : Program) (a : Nat) : List Nat :=
  (List.range p.nodes.size).filter fun t => p.isBranch t && p.anchor? t == some a

/-- The first branch of a group that continues on a decision. -/
def branchOn? (p : Program) (a : Nat) (b : Bool) : Option Nat :=
  (p.branchesOf a).find? fun t => p.expects? t == some b

/-- Whether a node is a branch of the group that hangs off `a`, or in the scope of one. -/
def inGroup (p : Program) (a j : Nat) : Bool :=
  (p.branchesOf a).contains j || (p.scope? j).any fun t => (p.branchesOf a).contains t

/-- The nodes in the scopes of those branches of a group that continue on a decision. -/
def bodyOf (p : Program) (a : Nat) (b : Bool) : List Nat :=
  (List.range p.nodes.size).filter fun j =>
    (p.scope? j).any fun t => (p.branchesOf a).contains t && p.expects? t == some b

/-- The first node of a pipeline after the group that hangs off one of its nodes. -/
def afterGroup? (p : Program) (a : Nat) : Option Nat :=
  (List.range p.nodes.size).find? fun j =>
    decide (a < j) && p.pipeline? j == p.pipeline? a && !p.inGroup a j

/-- The node that follows on a node in its pipeline. -/
def follower? (p : Program) (i : Nat) : Option Nat :=
  if p.continues (i + 1) then some (i + 1) else none

/-- Whether data flows from one node to another, when branches hang off `anchors`. -/
def leads (p : Program) (anchors : Nat → Nat) (i t : Nat) : Bool :=
  p.continues t && (t == i + 1 || (p.isBranch t && anchors t == i))

theorem leads_iff {p : Program} {anchors : Nat → Nat} {i t : Nat} :
    p.leads anchors i t ↔ p.continues t ∧ (t = i + 1 ∨ (p.isBranch t ∧ anchors t = i)) := by
  simp [leads]

theorem exists_pipeline? (p : Program) {i : Nat} (hi : i < p.nodes.size) :
    ∃ k : Nat, p.pipeline? i = some k := by
  unfold pipeline? node?
  rw [Array.getElem?_eq_getElem hi]
  exact ⟨_, rfl⟩

/-- The targets of a node are the targets of its pipes. -/
theorem pipeTargets_eq_pipes (p : Program) (i : Nat) :
    p.pipeTargets i = p.pipes.filterMap fun e =>
      if e.1 = i ∧ e.1 < p.nodes.size ∧ e.2 < p.nodes.size then some e.2 else none := by
  unfold pipeTargets pipes
  rw [List.filterMap_filterMap]
  congr 1
  funext c
  unfold isInside
  by_cases hkind : c.kind = .pipe
  · simp [hkind]
  · simp [hkind]

end Program

namespace Layout

variable {p : Program} {anchors : Nat → Nat}

-- ============================================================================
-- Successors
-- ============================================================================

/-- Of the edges into a node, at most one comes from `i`. -/
theorem incoming_from (h : Layout p anchors) {i t : Nat} (ht : t < p.nodes.size) :
    ((p.incoming anchors t).filterMap fun e =>
      if e.1 = i ∧ e.1 < p.nodes.size ∧ e.2 < p.nodes.size then some e.2 else none) =
      if p.leads anchors i t then [t] else [] := by
  unfold Program.incoming Program.leads
  by_cases hc : p.continues t
  · have hpos := h.first t hc
    by_cases hb : p.isBranch t ∧ anchors t + 1 ≠ t
    · have hlt := (h.anchored t hb.1).1
      by_cases hfrom : t - 1 = i
      · have hanchor : anchors t ≠ i := by omega
        have hnext : t = i + 1 := by omega
        have hi : i < p.nodes.size := by omega
        rw [if_pos hc, if_pos hb]
        simp [hfrom, hanchor, hi, ht, hc, ← hnext]
      · have hnext : ¬t = i + 1 := by omega
        rw [if_pos hc, if_pos hb]
        by_cases hanchor : anchors t = i
        · have hi : i < p.nodes.size := by omega
          simp [hfrom, hanchor, hi, ht, hc, hb.1]
        · simp [hfrom, hanchor, hnext]
    · rw [if_pos hc, if_neg hb]
      by_cases hfrom : t - 1 = i
      · have hnext : t = i + 1 := by omega
        have hi : i < p.nodes.size := by omega
        simp [hfrom, hi, ht, hc, ← hnext]
      · have hnext : ¬t = i + 1 := by omega
        have hanchor : ¬(p.isBranch t = true ∧ anchors t = i) := by
          rintro ⟨hbranch, rfl⟩
          exact hb ⟨hbranch, fun heq => hnext heq.symm⟩
        simp [hfrom, hnext, hanchor]
  · simp [hc]

/-- The targets of a node, in order. -/
theorem pipeTargets_eq (h : Layout p anchors) (i : Nat) :
    p.pipeTargets i = (List.range p.nodes.size).filter (p.leads anchors i) := by
  rw [Program.pipeTargets_eq_pipes, h.pipes, List.filterMap_flatMap]
  have hlist : ∀ l : List Nat, (∀ t ∈ l, t < p.nodes.size) →
      (l.flatMap fun t => (p.incoming anchors t).filterMap fun e =>
        if e.1 = i ∧ e.1 < p.nodes.size ∧ e.2 < p.nodes.size then some e.2 else none) =
      l.filter (p.leads anchors i) := by
    intro l hl
    induction l with
    | nil => rfl
    | cons t rest ih =>
      rw [List.flatMap_cons, ih fun s hs => hl s (List.mem_cons_of_mem t hs),
        h.incoming_from (hl t List.mem_cons_self), List.filter_cons]
      split <;> rfl
  exact hlist _ fun t ht => List.mem_range.1 ht

theorem mem_pipeTargets (h : Layout p anchors) {i t : Nat} :
    t ∈ p.pipeTargets i ↔ p.continues t ∧ (t = i + 1 ∨ (p.isBranch t ∧ anchors t = i)) := by
  rw [h.pipeTargets_eq, List.mem_filter, List.mem_range, Program.leads_iff]
  exact ⟨And.right, fun ht => ⟨Program.lt_size_of_continues ht.1, ht⟩⟩

/-- A branch is first reached from its anchor. -/
theorem anchor?_eq (h : Layout p anchors) {t : Nat} (ht : p.isBranch t) :
    p.anchor? t = some (anchors t) := by
  have hlt := (h.anchored t ht).1
  have hsize := Program.lt_size_of_isBranch ht
  have hc := Program.continues_of_isBranch ht
  refine List.find?_range_eq_some.2 ⟨?_, List.mem_range.2 (Nat.lt_trans hlt hsize), ?_⟩
  · rw [List.contains_iff_mem]
    exact h.mem_pipeTargets.2 ⟨hc, .inr ⟨ht, rfl⟩⟩
  · intro i hi
    rw [Bool.not_eq_true', ← Bool.not_eq_true, List.contains_iff_mem, h.mem_pipeTargets]
    rintro ⟨-, rfl | ⟨-, rfl⟩⟩ <;> omega

theorem mem_branchesOf (h : Layout p anchors) {a t : Nat} :
    t ∈ p.branchesOf a ↔ p.isBranch t ∧ anchors t = a := by
  unfold Program.branchesOf
  rw [List.mem_filter, List.mem_range]
  constructor
  · rintro ⟨-, ht⟩
    rw [Bool.and_eq_true, beq_iff_eq] at ht
    obtain ⟨hbranch, hanchor⟩ := ht
    rw [h.anchor?_eq hbranch] at hanchor
    exact ⟨hbranch, Option.some.inj hanchor⟩
  · rintro ⟨hbranch, rfl⟩
    refine ⟨Program.lt_size_of_isBranch hbranch, ?_⟩
    rw [hbranch, h.anchor?_eq hbranch, Bool.true_and, beq_self_eq_true]

theorem inGroup_iff (h : Layout p anchors) {a j : Nat} :
    p.inGroup a j ↔ p.Member anchors a j := by
  unfold Program.inGroup Program.Member
  rw [Bool.or_eq_true, List.contains_iff_mem, h.mem_branchesOf, Option.any_eq_true]
  simp only [List.contains_iff_mem, h.mem_branchesOf]

/-- A member of a group continues a pipeline, and stands behind the anchor. -/
theorem continues_of_member (h : Layout p anchors) {a j : Nat} (hj : p.Member anchors a j) :
    p.continues j ∧ a < j := by
  rcases hj with ⟨hbranch, rfl⟩ | ⟨t, hscope, hbranch, rfl⟩
  · exact ⟨Program.continues_of_isBranch hbranch, (h.anchored j hbranch).1⟩
  · obtain ⟨hc, -, -, hlt, -⟩ := h.block j t hscope
    exact ⟨hc, Nat.lt_trans (h.anchored t hbranch).1 hlt⟩

/-- Whatever stands between an anchor and a member of its group is a member. -/
theorem member_of_between (h : Layout p anchors) {a j k : Nat} (hk : p.Member anchors a k)
    (haj : a < j) (hjk : j < k) : p.Member anchors a j := by
  rcases hk with ⟨hbranch, rfl⟩ | ⟨t, hscope, hbranch, rfl⟩
  · exact (h.anchored k hbranch).2 j haj hjk
  · obtain ⟨-, -, -, -, hblock⟩ := h.block k t hscope
    rcases Nat.lt_trichotomy j t with hjt | rfl | htj
    · exact (h.anchored t hbranch).2 j haj hjt
    · exact .inl ⟨hbranch, rfl⟩
    · exact .inr ⟨t, hblock j htj hjk, hbranch, rfl⟩

/-- If anything hangs off a node, the first branch of its group is the next node. -/
theorem first_branch (h : Layout p anchors) {a t : Nat} (ht : p.isBranch t) (ha : anchors t = a) :
    p.isBranch (a + 1) ∧ anchors (a + 1) = a := by
  have hlt := (h.anchored t ht).1
  by_cases hnext : t = a + 1
  · rw [← hnext]
    exact ⟨ht, ha⟩
  · rcases (h.anchored t ht).2 (a + 1) (by omega) (by omega) with hmember | ⟨s, hscope, hs, hsa⟩
    · rw [ha] at hmember
      exact hmember
    · -- A scope behind the anchor starts at a later branch, so it cannot reach the next node.
      have hbefore := (h.block _ s hscope).2.2.2.1
      have hafter := (h.anchored s hs).1
      omega

/-- The first target of a node is the node that follows. -/
theorem head?_pipeTargets (h : Layout p anchors) (i : Nat) :
    (p.pipeTargets i).head? = p.follower? i := by
  rw [h.pipeTargets_eq, List.head?_filter]
  unfold Program.follower?
  split
  · next hc =>
    refine List.find?_range_eq_some.2 ⟨Program.leads_iff.2 ⟨hc, .inl rfl⟩,
      List.mem_range.2 (Program.lt_size_of_continues hc), fun j hj => ?_⟩
    rw [Bool.not_eq_true', ← Bool.not_eq_true, Program.leads_iff]
    rintro ⟨-, rfl | ⟨hb, rfl⟩⟩
    · omega
    · have := (h.anchored j hb).1
      omega
  · next hc =>
    refine List.find?_range_eq_none.2 fun j _ => ?_
    rw [Bool.not_eq_true', ← Bool.not_eq_true, Program.leads_iff]
    rintro ⟨hcontinues, rfl | ⟨hb, ha⟩⟩
    · exact hc hcontinues
    · exact hc (Program.continues_of_isBranch (h.first_branch hb ha).1)

/-- A node off which nothing hangs leads to the node that follows and nowhere else. -/
theorem eq_of_mem_pipeTargets (h : Layout p anchors) {i t : Nat} (hnone : p.branchesOf i = [])
    (ht : t ∈ p.pipeTargets i) : p.follower? i = some t := by
  obtain ⟨hc, rfl | hbranch⟩ := h.mem_pipeTargets.1 ht
  · exact if_pos hc
  · have := h.mem_branchesOf.2 hbranch
    rw [hnone] at this
    cases this

/-- A node off which branches hang leads to these and nowhere else. -/
theorem pipeTargets_of_branchesOf (h : Layout p anchors) {i : Nat} (hsome : p.branchesOf i ≠ []) :
    p.pipeTargets i = p.branchesOf i := by
  obtain ⟨t, ht⟩ := List.exists_mem_of_ne_nil _ hsome
  obtain ⟨hb, ha⟩ := h.mem_branchesOf.1 ht
  rw [h.pipeTargets_eq]
  unfold Program.branchesOf
  refine List.filter_congr fun s hs => Bool.eq_iff_iff.2 ?_
  rw [Program.leads_iff, Bool.and_eq_true, beq_iff_eq]
  constructor
  · rintro ⟨-, rfl | ⟨hbs, has⟩⟩
    · obtain ⟨hb', ha'⟩ := h.first_branch hb ha
      exact ⟨hb', by rw [h.anchor?_eq hb', ha']⟩
    · exact ⟨hbs, by rw [h.anchor?_eq hbs, has]⟩
  · rintro ⟨hbs, has⟩
    rw [h.anchor?_eq hbs] at has
    exact ⟨Program.continues_of_isBranch hbs, .inr ⟨hbs, Option.some.inj has⟩⟩

theorem successors_eq (p : Program) (i : Nat) :
    (Plan.ofProgram p).successors[i]?.getD [] = p.pipeTargets i := by
  show ((Array.range p.nodes.size).map p.pipeTargets)[i]?.getD [] = _
  rw [Array.getElem?_map, Array.getElem?_range]
  split
  · rfl
  · next hi =>
    -- Nothing flows from an id that is no node.
    refine (List.eq_nil_iff_forall_not_mem.2 fun t ht => hi ?_).symm
    unfold Program.pipeTargets Program.isInside at ht
    obtain ⟨c, -, heq⟩ := List.mem_filterMap.1 ht
    split at heq
    · next hinside =>
      obtain ⟨rfl, -, hin⟩ := hinside
      rw [Bool.and_eq_true, decide_eq_true_eq] at hin
      exact hin.1
    · cases heq

theorem expectations_eq (p : Program) (t : Nat) :
    ((Plan.ofProgram p).expectations[t]?).join = p.expects? t := by
  show ((p.nodes.map fun node => node.kind.expects?)[t]?).join = _
  rw [Array.getElem?_map]
  unfold Program.expects? Program.node?
  cases p.nodes[t]? <;> rfl

/-- Where a run goes after a node: to the first branch that hangs off it and continues on the
packet's decision, or else to the node that follows. -/
theorem next?_eq (h : Layout p anchors) (i : Nat) (packet : Packet) :
    (Plan.ofProgram p).next? i packet = (p.branchOn? i packet.decision).or (p.follower? i) := by
  have hhead := h.head?_pipeTargets i
  have hfind : ∀ l : List Nat, (l.find? fun c =>
      ((Plan.ofProgram p).expectations[c]?).join == some packet.decision) =
      l.find? fun c => p.expects? c == some packet.decision := by
    intro l
    congr 1
    funext c
    rw [expectations_eq]
  unfold Plan.next?
  rw [successors_eq]
  by_cases hnone : p.branchesOf i = []
  · have hon : p.branchOn? i packet.decision = none := by
      unfold Program.branchOn?
      rw [hnone]
      rfl
    rw [hon, Option.none_or]
    have honly : ∀ t ∈ p.pipeTargets i, p.follower? i = some t :=
      fun t ht => h.eq_of_mem_pipeTargets hnone ht
    match htargets : p.pipeTargets i with
    | [] =>
      rw [htargets] at hhead
      exact hhead
    | [only] =>
      rw [htargets] at hhead
      exact hhead
    | first :: second :: rest =>
      rw [htargets] at hhead honly
      show Option.or (List.find? _ _) _ = _
      rw [hfind]
      match hfound : (first :: second :: rest).find? fun c =>
          p.expects? c == some packet.decision with
      | none => exact hhead
      | some c => exact (honly c (List.mem_of_find?_eq_some hfound)).symm
  · rw [h.pipeTargets_of_branchesOf hnone] at hhead ⊢
    unfold Program.branchOn?
    match hbranches : p.branchesOf i with
    | [] => exact absurd hbranches hnone
    | [only] =>
      rw [hbranches] at hhead
      rw [← hhead, List.find?_singleton]
      show some only = _
      split <;> rfl
    | first :: second :: rest =>
      rw [hbranches] at hhead
      rw [← hhead]
      show Option.or (List.find? _ _) _ = _
      rw [hfind]
      rfl

-- ============================================================================
-- Branches that are passed over
-- ============================================================================

end Layout

/-- Where a branch that is passed over is left for: the first node behind its scope, if the
pipeline goes on there. -/
def Program.Skips (p : Program) (t : Nat) : Option Nat → Prop
  | some k => t < k ∧ p.continues k ∧ p.scope? k ≠ some t ∧ ∀ j, t < j → j < k → p.scope? j = some t
  | none => ∃ k, t < k ∧ p.continues k = false ∧ ∀ j, t < j → j < k → p.scope? j = some t

namespace Layout

variable {p : Program} {anchors : Nat → Nat}

/-- The search for the end of a scope ends within as many steps as there are nodes. -/
theorem joinFrom_skips (h : Layout p anchors) {t : Nat} (fuel current : Nat)
    (ht : t ≤ current) (hfuel : p.nodes.size < fuel + current + 1) (hsize : current < p.nodes.size)
    (hblock : ∀ j, t < j → j ≤ current → p.scope? j = some t) :
    p.Skips t (p.joinFrom t fuel current) := by
  induction fuel generalizing current with
  | zero => omega
  | succ fuel ih =>
    have hbefore : ∀ j, t < j → j < current + 1 → p.scope? j = some t :=
      fun j hj hjc => hblock j hj (Nat.le_of_lt_succ hjc)
    unfold Program.joinFrom
    rw [h.head?_pipeTargets]
    unfold Program.follower?
    by_cases hc : p.continues (current + 1)
    · obtain ⟨node, hnode, -⟩ := (Option.any_eq_true _ _).1 hc
      have hscope : p.scope? (current + 1) = node.scope := by
        unfold Program.scope?
        rw [hnode, Option.bind_some]
      rw [if_pos hc]
      simp only [hnode]
      split
      · next hin =>
        refine ih (current + 1) (by omega) (by omega) (Program.lt_size_of_continues hc) ?_
        intro j hj hjc
        rcases Nat.lt_or_eq_of_le hjc with hlt | rfl
        · exact hbefore j hj hlt
        · exact hscope.trans hin
      · next hout => exact ⟨by omega, hc, by rw [hscope]; exact hout, hbefore⟩
    · rw [if_neg hc]
      exact ⟨current + 1, by omega, Bool.eq_false_iff.2 hc, hbefore⟩

/-- A run leaves a branch that it does not take for the first node behind the branch's scope. -/
theorem join?_skips (h : Layout p anchors) {t : Nat} (ht : p.isBranch t) :
    p.Skips t ((Plan.ofProgram p).join? t) := by
  have hsize := Program.lt_size_of_isBranch ht
  have hskips : p.Skips t (p.joinPoint t) :=
    h.joinFrom_skips p.nodes.size t (Nat.le_refl t) (by omega) hsize fun j hj hjt => by omega
  have hjoin : (Plan.ofProgram p).join? t = p.joinPoint t := by
    show ((p.nodes.map fun node =>
      if node.kind.expects?.isSome then p.joinPoint node.id else none)[t]?).join = _
    unfold Program.isBranch Program.expects? Program.node? at ht
    rw [Array.getElem?_map]
    match hn : p.nodes[t]? with
    | none =>
      rw [hn] at ht
      cases ht
    | some node =>
      rw [hn, Option.bind_some] at ht
      rw [Option.map_some, Option.join_some, if_pos ht, h.indexed t node hn]
  rw [hjoin]
  exact hskips

-- ============================================================================
-- After a group
-- ============================================================================

/-- Along nodes that continue it, a pipeline stays the same. -/
theorem pipeline?_eq (h : Layout p anchors) {i j : Nat} (hij : i ≤ j)
    (hc : ∀ k, i < k → k ≤ j → p.continues k) : p.pipeline? j = p.pipeline? i := by
  induction j with
  | zero =>
    obtain rfl : i = 0 := by omega
    rfl
  | succ j ih =>
    rcases Nat.lt_or_eq_of_le hij with hlt | rfl
    · have hprev := ih (by omega) fun k hk hkj => hc k hk (by omega)
      have hlast := hc (j + 1) hlt (Nat.le_refl _)
      obtain ⟨node, hnode, -⟩ := (Option.any_eq_true _ _).1 hlast
      have hpipeline : p.pipeline? (j + 1) = some node.pipeline := by
        unfold Program.pipeline?
        rw [hnode, Option.map_some]
      rw [hpipeline, ← hprev, h.continued j _ hpipeline hlast]
    · rfl

/-- Pipelines are numbered in the order of their nodes. -/
theorem pipeline?_mono (h : Layout p anchors) {i j k l : Nat} (hij : i ≤ j)
    (hk : p.pipeline? i = some k) (hl : p.pipeline? j = some l) : k ≤ l := by
  induction j generalizing l with
  | zero =>
    obtain rfl : i = 0 := by omega
    rw [hk] at hl
    exact Nat.le_of_eq (Option.some.inj hl)
  | succ j ih =>
    rcases Nat.lt_or_eq_of_le hij with hlt | rfl
    · have hsize := Program.lt_size_of_pipeline? hl
      obtain ⟨m, hm⟩ := p.exists_pipeline? (Nat.lt_of_succ_lt hsize)
      have hkm := ih (Nat.le_of_lt_succ hlt) hm
      by_cases hc : p.continues (j + 1)
      · rw [h.continued j l hl hc] at hm
        exact Nat.le_trans hkm (Nat.le_of_eq (Option.some.inj hm).symm)
      · exact Nat.le_trans hkm (Nat.le_of_lt (h.started j l m hl (Bool.eq_false_iff.2 hc) hm))
    · rw [hk] at hl
      exact Nat.le_of_eq (Option.some.inj hl)

/-- The node after a group is the node that follows on the group's last. -/
theorem afterGroup?_eq (h : Layout p anchors) {a e : Nat} (hae : a < e)
    (he : p.Member anchors a e) (hnot : ¬p.Member anchors a (e + 1)) :
    p.afterGroup? a = p.follower? e := by
  have hgroup : ∀ j, a < j → j ≤ e → p.Member anchors a j := by
    intro j haj hje
    rcases Nat.lt_or_eq_of_le hje with hlt | rfl
    · exact h.member_of_between he haj hlt
    · exact he
  have hsame : p.pipeline? e = p.pipeline? a :=
    h.pipeline?_eq (Nat.le_of_lt hae) fun k hk hke => (h.continues_of_member (hgroup k hk hke)).1
  unfold Program.afterGroup? Program.follower?
  -- Up to the last node of the group no node qualifies.
  have hbefore : ∀ j, j ≤ e → (decide (a < j) && p.pipeline? j == p.pipeline? a &&
      !p.inGroup a j) = false := by
    intro j hj
    by_cases haj : a < j
    · rw [h.inGroup_iff.2 (hgroup j haj hj)]
      simp
    · simp [haj]
  split
  · next hc =>
    refine List.find?_range_eq_some.2 ⟨?_, List.mem_range.2 (Program.lt_size_of_continues hc), ?_⟩
    · have hlast : p.pipeline? (e + 1) = p.pipeline? e := by
        refine h.pipeline?_eq (Nat.le_succ e) fun k hk hke => ?_
        obtain rfl : k = e + 1 := by omega
        exact hc
      have hout : p.inGroup a (e + 1) = false :=
        Bool.eq_false_iff.2 fun hin => hnot (h.inGroup_iff.1 hin)
      rw [hlast, hsame, hout]
      simp
      omega
    · intro j hj
      rw [hbefore j (Nat.le_of_lt_succ hj)]
      rfl
  · next hc =>
    refine List.find?_range_eq_none.2 fun j hj => ?_
    by_cases hje : j ≤ e
    · rw [hbefore j hje]
      rfl
    · -- The next pipeline has begun, and no later node belongs to an earlier one.
      have hsize : e + 1 < p.nodes.size := by omega
      obtain ⟨k, hk⟩ := p.exists_pipeline? (Nat.lt_of_succ_lt hsize)
      obtain ⟨m, hm⟩ := p.exists_pipeline? hsize
      obtain ⟨l, hl⟩ := p.exists_pipeline? hj
      have hkm : k < m := h.started e m k hm (Bool.eq_false_iff.2 hc) hk
      have hml : m ≤ l := h.pipeline?_mono (by omega) hm hl
      have hne : l ≠ k := by omega
      rw [hl, ← hsame, hk]
      simp [hne]

end Layout

end Sluice
