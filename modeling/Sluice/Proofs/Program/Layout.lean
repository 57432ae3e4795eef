/-
  Sluice.Proofs.Program.Layout

  The shape of the graphs that source text builds.

  Nodes are numbered in the order in which they are written, so a pipeline is a run of
  consecutive ids. A node that continues a pipeline is reached from the node before it; a branch
  that is not the first of its group is reached from the group's anchor as well. Between an
  anchor and the last of its branches stand only branches of the group and the nodes in their
  scopes, and a scope is a block of ids behind its branch.

  Which node a branch hangs off is known while the graph is built and nowhere recorded, so a
  `Layout` takes the anchors as a function. Every edge is then determined: `incoming` lists the
  edges into a node, and the graph has these and no others.
-/

import Sluice.Plan
import Sluice.Program.Build

namespace Sluice

-- ============================================================================
-- Reading a graph
-- ============================================================================

/-- Whether a kind is a split. -/
def NodeKind.isSplit : NodeKind → Bool
  | lens .split _ => true
  | _ => false

namespace Program

/-- The decision that a node continues on, if it is a branch. -/
def expects? (p : Program) (id : Nat) : Option Bool :=
  (p.node? id).bind fun node => node.kind.expects?

/-- Whether a node is a branch. -/
def isBranch (p : Program) (id : Nat) : Bool :=
  (p.expects? id).isSome

/-- The branch whose scope a node is in. -/
def scope? (p : Program) (id : Nat) : Option Nat :=
  (p.node? id).bind fun node => node.scope

/-- The pipeline of a node. -/
def pipeline? (p : Program) (id : Nat) : Option PipelineId :=
  (p.node? id).map fun node => node.pipeline

/-- Whether a node continues a pipeline and does not start one. -/
def continues (p : Program) (id : Nat) : Bool :=
  (p.node? id).any fun node => !node.kind.isSource

/-- Whether a node is a split. -/
def isSplit (p : Program) (id : Nat) : Bool :=
  (p.node? id).any fun node => node.kind.isSplit

/-- Whether a node ends its pipeline. -/
def isTerminal (p : Program) (id : Nat) : Bool :=
  (p.node? id).any fun node => node.terminal

/-- The edges along which data flows within pipelines. -/
def pipes (p : Program) : List (Nat × Nat) :=
  p.connections.toList.filterMap fun c => if c.kind = .pipe then some (c.source, c.target) else none

/-- The edges into a node, when branches hang off `anchors`. -/
def incoming (p : Program) (anchors : Nat → Nat) (t : Nat) : List (Nat × Nat) :=
  if p.continues t then
    (t - 1, t) :: if p.isBranch t ∧ anchors t + 1 ≠ t then [(anchors t, t)] else []
  else []

/-- A node of the group that hangs off `a`: one of its branches, or a node in the scope of one. -/
def Member (p : Program) (anchors : Nat → Nat) (a j : Nat) : Prop :=
  (p.isBranch j ∧ anchors j = a) ∨ ∃ t, p.scope? j = some t ∧ p.isBranch t ∧ anchors t = a

/-- Every node's id is its index. -/
def Indexed (p : Program) : Prop :=
  ∀ i node, p.node? i = some node → node.id = i

end Program

/-- The shape of a graph whose branches hang off `anchors`. -/
structure Layout (p : Program) (anchors : Nat → Nat) : Prop where
  indexed : p.Indexed
  pipes : p.pipes = (List.range p.nodes.size).flatMap (p.incoming anchors)
  /-- The first node starts a pipeline. -/
  first : ∀ t, p.continues t → 0 < t
  /-- Nothing but its group stands between a branch and its anchor. -/
  anchored : ∀ t, p.isBranch t → anchors t < t ∧
    ∀ j, anchors t < j → j < t → p.Member anchors (anchors t) j
  /-- A scope is a block of ids behind its branch. -/
  block : ∀ j t, p.scope? j = some t → p.continues j ∧ p.isBranch j = false ∧ p.isBranch t ∧
    t < j ∧ ∀ k, t < k → k < j → p.scope? k = some t
  /-- A node that continues a pipeline is in the pipeline of the node before it. -/
  continued : ∀ t k, p.pipeline? (t + 1) = some k → p.continues (t + 1) → p.pipeline? t = some k
  /-- A node that starts a pipeline is in a later one than the node before it. -/
  started : ∀ t k l, p.pipeline? (t + 1) = some k → p.continues (t + 1) = false →
    p.pipeline? t = some l → l < k
  counted : ∀ t k, p.pipeline? t = some k → k < p.pipelineCount

-- ============================================================================
-- One node more
-- ============================================================================

namespace Program

variable {p p' : Program} {node : Node}

/-- What is read off a node that was there before stays. -/
theorem node?_push_of_lt (hnodes : p'.nodes = p.nodes.push node) {i : Nat}
    (hi : i < p.nodes.size) : p'.node? i = p.node? i := by
  unfold node?
  rw [hnodes, Array.getElem?_push_lt hi, Array.getElem?_eq_getElem hi]

theorem node?_push_self (hnodes : p'.nodes = p.nodes.push node) :
    p'.node? p.nodes.size = some node := by
  unfold node?
  rw [hnodes, Array.getElem?_push_size]

/-- A node either continues its pipeline or starts it. -/
theorem continues_eq {i : Nat} (hnode : p.node? i = some node) :
    p.continues i = !node.kind.isSource := by
  unfold continues
  rw [hnode, Option.any_some]

theorem continues_push_self (hnodes : p'.nodes = p.nodes.push node) :
    p'.continues p.nodes.size = !node.kind.isSource :=
  continues_eq (node?_push_self hnodes)

theorem isBranch_push_self (hnodes : p'.nodes = p.nodes.push node) :
    p'.isBranch p.nodes.size = node.kind.expects?.isSome := by
  unfold isBranch expects?
  rw [node?_push_self hnodes, Option.bind_some]

theorem scope?_push_self (hnodes : p'.nodes = p.nodes.push node) :
    p'.scope? p.nodes.size = node.scope := by
  unfold scope?
  rw [node?_push_self hnodes, Option.bind_some]

theorem pipeline?_push_self (hnodes : p'.nodes = p.nodes.push node) :
    p'.pipeline? p.nodes.size = some node.pipeline := by
  unfold pipeline?
  rw [node?_push_self hnodes, Option.map_some]

theorem lt_size_of_node? {i : Nat} (h : p.node? i = some node) : i < p.nodes.size := by
  unfold node? at h
  exact (Array.getElem?_eq_some_iff.1 h).1

theorem lt_size_of_isBranch {i : Nat} (h : p.isBranch i) : i < p.nodes.size := by
  unfold isBranch expects? at h
  match hn : p.node? i with
  | some node => exact lt_size_of_node? hn
  | none =>
    rw [hn] at h
    cases h

theorem lt_size_of_scope? {i t : Nat} (h : p.scope? i = some t) : i < p.nodes.size := by
  obtain ⟨node, hn, -⟩ := Option.bind_eq_some_iff.1 h
  exact lt_size_of_node? hn

theorem lt_size_of_continues {i : Nat} (h : p.continues i) : i < p.nodes.size := by
  obtain ⟨node, hn, -⟩ := (Option.any_eq_true _ _).1 h
  exact lt_size_of_node? hn

theorem lt_size_of_pipeline? {i : Nat} {k : PipelineId} (h : p.pipeline? i = some k) :
    i < p.nodes.size := by
  obtain ⟨node, hn, -⟩ := Option.map_eq_some_iff.1 h
  exact lt_size_of_node? hn

/-- What waits for a decision is a branch. -/
theorem isBranch_of_expects? {i : Nat} {e : Bool} (h : p.expects? i = some e) : p.isBranch i := by
  unfold isBranch
  rw [h]
  rfl

/-- A branch continues a pipeline. -/
theorem continues_of_isBranch {i : Nat} (h : p.isBranch i) : p.continues i := by
  unfold isBranch expects? at h
  unfold continues
  match hn : p.node? i with
  | none =>
    rw [hn] at h
    cases h
  | some node =>
    rw [hn] at h
    match hk : node.kind with
    | .branch _ => rw [Option.any_some, hk]; rfl
    | .finiteSource _ | .liveSource _ | .operator | .lens _ _ | .poolAccess _ | .poolWrite _ =>
      rw [Option.bind_some, hk] at h
      cases h

/-- A branch is no split. -/
theorem isSplit_of_isBranch {p : Program} {id : Nat} (h : p.isBranch id) :
    p.isSplit id = false := by
  unfold isBranch expects? at h
  unfold isSplit
  match hn : p.node? id with
  | none => rfl
  | some node =>
    rw [hn, Option.bind_some] at h
    rw [Option.any_some]
    match hk : node.kind with
    | .branch _ => rfl
    | .finiteSource _ | .liveSource _ | .operator | .lens _ _ | .poolAccess _ | .poolWrite _ =>
      rw [hk] at h
      cases h

/-- Two graphs with the same node at an id agree on what is read off it. -/
theorem expects?_of_node? {i : Nat} (h : p'.node? i = p.node? i) :
    p'.expects? i = p.expects? i := by
  unfold expects?
  rw [h]

theorem isBranch_of_node? {i : Nat} (h : p'.node? i = p.node? i) :
    p'.isBranch i = p.isBranch i := by
  unfold isBranch
  rw [expects?_of_node? h]

theorem scope?_of_node? {i : Nat} (h : p'.node? i = p.node? i) :
    p'.scope? i = p.scope? i := by
  unfold scope?
  rw [h]

theorem pipeline?_of_node? {i : Nat} (h : p'.node? i = p.node? i) :
    p'.pipeline? i = p.pipeline? i := by
  unfold pipeline?
  rw [h]

theorem continues_of_node? {i : Nat} (h : p'.node? i = p.node? i) :
    p'.continues i = p.continues i := by
  unfold continues
  rw [h]

theorem incoming_of_node? {anchors anchors' : Nat → Nat} {t : Nat}
    (h : p'.node? t = p.node? t) (ha : anchors' t = anchors t) :
    p'.incoming anchors' t = p.incoming anchors t := by
  unfold incoming
  rw [continues_of_node? h, isBranch_of_node? h, ha]

/-- A member of a group stays one when nodes are added. -/
theorem Member.push {anchors anchors' : Nat → Nat} {a j : Nat}
    (hj : p.Member anchors a j) (hnodes : p'.nodes = p.nodes.push node)
    (hsame : ∀ t < p.nodes.size, anchors' t = anchors t) : p'.Member anchors' a j := by
  rcases hj with ⟨hbranch, ha⟩ | ⟨t, hscope, hbranch, ha⟩
  · have hlt := lt_size_of_isBranch hbranch
    refine .inl ⟨?_, by rw [hsame j hlt, ha]⟩
    rw [isBranch_of_node? (node?_push_of_lt hnodes hlt)]
    exact hbranch
  · have hlt := lt_size_of_isBranch hbranch
    refine .inr ⟨t, ?_, ?_, by rw [hsame t hlt, ha]⟩
    · rw [scope?_of_node? (node?_push_of_lt hnodes (lt_size_of_scope? hscope))]
      exact hscope
    · rw [isBranch_of_node? (node?_push_of_lt hnodes hlt)]
      exact hbranch

end Program

namespace Layout

variable {p p' : Program} {anchors anchors' : Nat → Nat} {node : Node}

/-- Branches are in no scope. -/
theorem scope?_of_isBranch (h : Layout p anchors) {x : Nat} (hx : p.isBranch x) :
    p.scope? x = none := by
  match hscope : p.scope? x with
  | none => rfl
  | some t =>
    rw [(h.block x t hscope).2.1] at hx
    cases hx

/-- The empty graph. -/
theorem empty (anchors : Nat → Nat) : Layout {} anchors where
  indexed _ _ h := absurd (Program.lt_size_of_node? h) (Nat.not_lt_zero _)
  pipes := rfl
  first _ h := absurd (Program.lt_size_of_continues h) (Nat.not_lt_zero _)
  anchored _ h := absurd (Program.lt_size_of_isBranch h) (Nat.not_lt_zero _)
  block _ _ h := absurd (Program.lt_size_of_scope? h) (Nat.not_lt_zero _)
  continued _ _ h := absurd (Program.lt_size_of_pipeline? h) (Nat.not_lt_zero _)
  started _ _ _ h := absurd (Program.lt_size_of_pipeline? h) (Nat.not_lt_zero _)
  counted _ _ h := absurd (Program.lt_size_of_pipeline? h) (Nat.not_lt_zero _)

/-- The layout of a graph is a matter of its nodes and pipes. -/
theorem congr (h : Layout p anchors) (hnodes : p'.nodes = p.nodes) (hpipes : p'.pipes = p.pipes)
    (hcount : p'.pipelineCount = p.pipelineCount) : Layout p' anchors := by
  obtain ⟨nodes, connections, pools, subscriptions, imports, stubs, warnings, count⟩ := p'
  obtain rfl : nodes = p.nodes := hnodes
  obtain rfl : count = p.pipelineCount := hcount
  exact ⟨h.indexed, hpipes.trans h.pipes, h.first, h.anchored, h.block, h.continued, h.started,
    h.counted⟩

/-- A node that can follow on the graph: what its place demands of its kind, its scope and, if
it is a branch, of its anchor `a`. -/
structure Fits (p : Program) (anchors : Nat → Nat) (node : Node) (a : Nat) : Prop where
  id : node.id = p.nodes.size
  first : node.kind.isSource = false → 0 < p.nodes.size
  branch : node.kind.expects?.isSome → node.scope = none ∧ a < p.nodes.size ∧
    ∀ j, a < j → j < p.nodes.size → p.Member anchors a j
  scope : ∀ t, node.scope = some t → node.kind.isSource = false ∧ p.isBranch t ∧
    ∀ k, t < k → k < p.nodes.size → p.scope? k = some t
  continued : node.kind.isSource = false → p.pipeline? (p.nodes.size - 1) = some node.pipeline
  started : node.kind.isSource = true → ∀ t l, p.pipeline? t = some l → l < node.pipeline

/-- Adding a node that fits, with the edges into it, keeps the layout. -/
theorem push (h : Layout p anchors) (hnodes : p'.nodes = p.nodes.push node)
    (hsame : ∀ t < p.nodes.size, anchors' t = anchors t)
    (hfits : Fits p anchors node (anchors' p.nodes.size))
    (hpipes : p'.pipes = p.pipes ++ p'.incoming anchors' p.nodes.size)
    (hcount : p.pipelineCount ≤ p'.pipelineCount) (hnew : node.pipeline < p'.pipelineCount) :
    Layout p' anchors' := by
  have hsize : p'.nodes.size = p.nodes.size + 1 := by rw [hnodes, Array.size_push]
  have hself : p'.node? p.nodes.size = some node := Program.node?_push_self hnodes
  have hold : ∀ {i}, i < p.nodes.size → p'.node? i = p.node? i :=
    fun hi => Program.node?_push_of_lt hnodes hi
  -- Whatever is read off an id is read off an old node or off the new one.
  have hcase : ∀ {i}, i < p'.nodes.size → i < p.nodes.size ∨ i = p.nodes.size := by omega
  have hcontinues := Program.continues_push_self hnodes
  have hbranch := Program.isBranch_push_self hnodes
  have hscope := Program.scope?_push_self hnodes
  have hpipeline := Program.pipeline?_push_self hnodes
  have hmember : ∀ {a j}, p.Member anchors a j → p'.Member anchors' a j :=
    fun hj => hj.push hnodes hsame
  constructor
  case indexed =>
    intro i m hm
    rcases hcase (Program.lt_size_of_node? hm) with hi | rfl
    · exact h.indexed i m (by rw [← hold hi]; exact hm)
    · rw [hself] at hm
      cases hm
      exact hfits.id
  case pipes =>
    rw [hpipes, hsize, List.range_succ, List.flatMap_append, h.pipes]
    congr 1
    · rw [List.flatMap_def, List.flatMap_def]
      congr 1
      refine List.map_congr_left fun t ht => ?_
      have hlt := List.mem_range.1 ht
      exact (Program.incoming_of_node? (hold hlt) (hsame t hlt)).symm
    · rw [List.flatMap_singleton]
  case first =>
    intro t ht
    rcases hcase (Program.lt_size_of_continues ht) with hi | rfl
    · exact h.first t (by rw [← Program.continues_of_node? (hold hi)]; exact ht)
    · rw [hcontinues, Bool.not_eq_true'] at ht
      exact hfits.first ht
  case anchored =>
    intro t ht
    rcases hcase (Program.lt_size_of_isBranch ht) with hi | rfl
    · rw [Program.isBranch_of_node? (hold hi)] at ht
      rw [hsame t hi]
      exact ⟨(h.anchored t ht).1, fun j hj hjt => hmember ((h.anchored t ht).2 j hj hjt)⟩
    · rw [hbranch] at ht
      obtain ⟨-, ha, hbetween⟩ := hfits.branch ht
      exact ⟨ha, fun j hj hjt => hmember (hbetween j hj hjt)⟩
  case block =>
    intro j t hj
    rcases hcase (Program.lt_size_of_scope? hj) with hi | rfl
    · rw [Program.scope?_of_node? (hold hi)] at hj
      obtain ⟨hc, hnot, hb, hlt, hblock⟩ := h.block j t hj
      refine ⟨?_, ?_, ?_, hlt, fun k hk hkj => ?_⟩
      · rw [Program.continues_of_node? (hold hi)]
        exact hc
      · rw [Program.isBranch_of_node? (hold hi)]
        exact hnot
      · rw [Program.isBranch_of_node? (hold (Nat.lt_trans hlt hi))]
        exact hb
      · rw [Program.scope?_of_node? (hold (Nat.lt_trans hkj hi))]
        exact hblock k hk hkj
    · rw [hscope] at hj
      obtain ⟨hsource, hb, hblock⟩ := hfits.scope t hj
      have hlt := Program.lt_size_of_isBranch hb
      refine ⟨by rw [hcontinues, hsource]; rfl, ?_, ?_, hlt, fun k hk hkj => ?_⟩
      · rw [hbranch]
        match hyes : node.kind.expects?.isSome with
        | false => rfl
        | true =>
          rw [(hfits.branch hyes).1] at hj
          cases hj
      · rw [Program.isBranch_of_node? (hold hlt)]
        exact hb
      · rw [Program.scope?_of_node? (hold hkj)]
        exact hblock k hk hkj
  case continued =>
    intro t k hk hc
    rcases hcase (Program.lt_size_of_pipeline? hk) with hi | hi
    · rw [Program.pipeline?_of_node? (hold hi)] at hk
      rw [Program.continues_of_node? (hold hi)] at hc
      rw [Program.pipeline?_of_node? (hold (Nat.lt_of_succ_lt hi))]
      exact h.continued t k hk hc
    · rw [hi] at hk hc
      rw [hpipeline] at hk
      cases hk
      rw [hcontinues, Bool.not_eq_true'] at hc
      rw [Program.pipeline?_of_node? (hold (by omega))]
      have hprev := hfits.continued hc
      rw [← hi] at hprev
      exact hprev
  case started =>
    intro t k l hk hc hl
    rcases hcase (Program.lt_size_of_pipeline? hk) with hi | hi
    · rw [Program.pipeline?_of_node? (hold hi)] at hk
      rw [Program.continues_of_node? (hold hi)] at hc
      rw [Program.pipeline?_of_node? (hold (Nat.lt_of_succ_lt hi))] at hl
      exact h.started t k l hk hc hl
    · rw [hi] at hk hc
      rw [hpipeline] at hk
      cases hk
      rw [hcontinues, Bool.not_eq_false'] at hc
      rw [Program.pipeline?_of_node? (hold (by omega))] at hl
      exact hfits.started hc t l hl
  case counted =>
    intro t k hk
    rcases hcase (Program.lt_size_of_pipeline? hk) with hi | rfl
    · rw [Program.pipeline?_of_node? (hold hi)] at hk
      exact Nat.lt_of_lt_of_le (h.counted t k hk) hcount
    · rw [hpipeline] at hk
      cases hk
      exact hnew

end Layout

end Sluice
