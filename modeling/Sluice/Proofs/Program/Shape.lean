/-
  Sluice.Proofs.Program.Shape

  The shape of the graphs that source text builds, read off a graph alone. Ids are indices, and
  connections join nodes. A pipeline is a run of consecutive nodes behind its source, each piped
  to the next and beyond it only to branches. The scope of a branch is a block of nodes right
  behind it. Every node can be reached from where a run can start.

  All of this is a matter of the layout and the wiring that building keeps.
-/

import Mathlib.Order.Nat
import Sluice.Proofs.Plan.Groups
import Sluice.Proofs.Program.Wiring

namespace Sluice

/-- Numbers, runs and reach of the nodes of a graph. -/
structure Program.Regular (p : Program) : Prop where
  /-- A node's id is its index. -/
  nodes : ∀ i node, p.node? i = some node → node.id = i
  /-- A connection's id is its index, and both its ends are nodes. -/
  connections : ∀ (i : Nat) (c : Connection), p.connections[i]? = some c →
    c.id = i ∧ c.source < p.nodes.size ∧ c.target < p.nodes.size
  /-- A node is in one of the pipelines that are counted. -/
  counted : ∀ i k, p.pipeline? i = some k → k < p.pipelineCount
  /-- The nodes of a pipeline are consecutive, and the first is its only source. -/
  pipelines : ∀ k : Nat, k < p.pipelineCount → ∃ first last, first ≤ last ∧
    (∀ i, p.pipeline? i = some k ↔ first ≤ i ∧ i ≤ last) ∧
    ∀ i node, p.node? i = some node → p.pipeline? i = some k →
      (node.kind.isSource = true ↔ i = first)
  /-- Data flows from a node to the next of its pipeline, and else only to later branches. -/
  chained : ∀ i, i < p.nodes.size → p.pipeline? (i + 1) = p.pipeline? i →
    ∃ others, p.pipeTargets i = (i + 1) :: others ∧
      ∀ t ∈ others, p.isBranch t ∧ i + 1 < t ∧ p.pipeline? t = p.pipeline? i
  /-- No data flows from the last node of a pipeline. -/
  ended : ∀ i, p.pipeline? (i + 1) ≠ p.pipeline? i → p.pipeTargets i = []
  /-- A scope is that of a branch of the same pipeline. -/
  inside : ∀ j t, p.scope? j = some t → p.isBranch t ∧ p.pipeline? j = p.pipeline? t
  /-- The nodes in the scope of a branch are those right behind it, up to some number. -/
  scopes : ∀ t, p.isBranch t → ∃ n, ∀ j, p.scope? j = some t ↔ t < j ∧ j ≤ t + n
  /-- The plan of the graph leaves no node out of reach. -/
  reached : (Plan.ofProgram p).stats.unreachable = 0

-- ============================================================================
-- Pipelines
-- ============================================================================

namespace Layout

variable {p : Program} {anchors : Nat → Nat}

/-- What stands between two nodes of a pipeline is in the pipeline. -/
theorem pipeline?_between (h : Layout p anchors) {i j l k : Nat} (hi : p.pipeline? i = some k)
    (hl : p.pipeline? l = some k) (hij : i ≤ j) (hjl : j ≤ l) : p.pipeline? j = some k := by
  have hsize := Program.lt_size_of_pipeline? hl
  obtain ⟨m, hm⟩ := p.exists_pipeline? (Nat.lt_of_le_of_lt hjl hsize)
  have hle : k ≤ m := h.pipeline?_mono hij hi hm
  have hge : m ≤ k := h.pipeline?_mono hjl hm hl
  rw [hm, Nat.le_antisymm hge hle]

/-- The nodes of a pipeline are a run of ids. -/
theorem exists_run (h : Layout p anchors) {k i : Nat} (hi : p.pipeline? i = some k) :
    ∃ first last, first ≤ last ∧ ∀ j, p.pipeline? j = some k ↔ first ≤ j ∧ j ≤ last := by
  have hsome : ∃ j, p.pipeline? j = some k := ⟨i, hi⟩
  let first := Nat.find hsome
  let last := Nat.findGreatest (fun j => p.pipeline? j = some k) p.nodes.size
  have hfirst : p.pipeline? first = some k := Nat.find_spec hsome
  have hbelow : ∀ j, p.pipeline? j = some k → j ≤ last := fun j hj =>
    Nat.le_findGreatest (Nat.le_of_lt (Program.lt_size_of_pipeline? hj)) hj
  have hlast : p.pipeline? last = some k :=
    Nat.findGreatest_spec (P := fun j => p.pipeline? j = some k)
      (Nat.le_of_lt (Program.lt_size_of_pipeline? hi)) hi
  refine ⟨first, last, hbelow first hfirst, fun j => ⟨fun hj => ?_, fun hj => ?_⟩⟩
  · exact ⟨Nat.find_min' hsome hj, hbelow j hj⟩
  · exact h.pipeline?_between hfirst hlast hj.1 hj.2

/-- The first node of a pipeline starts it, and the others continue it. -/
theorem isSource_iff (h : Layout p anchors) {k first last : Nat}
    (hrun : ∀ j, p.pipeline? j = some k ↔ first ≤ j ∧ j ≤ last) {i : Nat} {node : Node}
    (hnode : p.node? i = some node) (hi : p.pipeline? i = some k) :
    node.kind.isSource = true ↔ i = first := by
  obtain ⟨hfi, hil⟩ := (hrun i).1 hi
  have hcontinues := Program.continues_eq hnode
  constructor
  · intro hsource
    rw [hsource] at hcontinues
    rcases Nat.lt_or_eq_of_le hfi with hlt | heq
    · -- The node before it would be in the same pipeline, and in an earlier one.
      obtain ⟨j, rfl⟩ : ∃ j, i = j + 1 := ⟨i - 1, by omega⟩
      have hj : p.pipeline? j = some k := (hrun j).2 ⟨by omega, by omega⟩
      exact absurd (h.started j k k hi hcontinues hj) (Nat.lt_irrefl k)
    · exact heq.symm
  · rintro rfl
    by_contra hsource
    rw [Bool.not_eq_true] at hsource
    rw [hsource] at hcontinues
    have hpos := h.first i hcontinues
    obtain ⟨j, rfl⟩ : ∃ j, i = j + 1 := ⟨i - 1, by omega⟩
    have hj := (hrun j).1 (h.continued j k hi hcontinues)
    omega

/-- A node continues the pipeline of the node before it if it is in this pipeline. -/
theorem continues_succ_iff (h : Layout p anchors) {i : Nat} (hi : i < p.nodes.size) :
    p.continues (i + 1) = true ↔ p.pipeline? (i + 1) = p.pipeline? i := by
  obtain ⟨k, hk⟩ := p.exists_pipeline? hi
  constructor
  · intro hc
    exact h.pipeline?_eq (Nat.le_succ i) fun j hij hji => (by omega : j = i + 1) ▸ hc
  · intro heq
    rw [hk] at heq
    by_contra hc
    rw [Bool.not_eq_true] at hc
    exact absurd (h.started i k k heq hc hk) (Nat.lt_irrefl k)

-- ============================================================================
-- Pipes and scopes
-- ============================================================================

/-- A branch is in the pipeline of the node that it hangs off. -/
theorem pipeline?_anchor (h : Layout p anchors) {t : Nat} (ht : p.isBranch t) :
    p.pipeline? t = p.pipeline? (anchors t) := by
  obtain ⟨hlt, hgroup⟩ := h.anchored t ht
  refine h.pipeline?_eq (Nat.le_of_lt hlt) fun j hj hjt => ?_
  rcases Nat.lt_or_eq_of_le hjt with hlt | rfl
  · exact (h.continues_of_member (hgroup j hj hlt)).1
  · exact Program.continues_of_isBranch ht

/-- A node that has a follower is piped to it first, and then to branches behind it. -/
theorem pipeTargets_chained (h : Layout p anchors) {i : Nat} (hc : p.continues (i + 1)) :
    ∃ others, p.pipeTargets i = (i + 1) :: others ∧
      ∀ t ∈ others, p.isBranch t ∧ i + 1 < t ∧ p.pipeline? t = p.pipeline? i := by
  have hhead := h.head?_pipeTargets i
  unfold Program.follower? at hhead
  rw [if_pos hc] at hhead
  obtain ⟨others, hothers⟩ := List.head?_eq_some_iff.1 hhead
  refine ⟨others, hothers, fun t ht => ?_⟩
  have hsorted : ((i + 1) :: others).Pairwise (· < ·) := by
    rw [← hothers, h.pipeTargets_eq]
    exact List.Pairwise.filter _ List.pairwise_lt_range
  have hlt : i + 1 < t := List.rel_of_pairwise_cons hsorted ht
  have hmem : t ∈ p.pipeTargets i := hothers ▸ List.mem_cons_of_mem _ ht
  obtain ⟨-, rfl | ⟨hbranch, rfl⟩⟩ := h.mem_pipeTargets.1 hmem
  · exact absurd hlt (Nat.lt_irrefl _)
  · exact ⟨hbranch, hlt, h.pipeline?_anchor hbranch⟩

/-- A node without a follower is piped to nothing. -/
theorem pipeTargets_ended (h : Layout p anchors) {i : Nat} (hc : ¬p.continues (i + 1)) :
    p.pipeTargets i = [] := by
  have hhead := h.head?_pipeTargets i
  unfold Program.follower? at hhead
  rw [if_neg hc] at hhead
  exact List.head?_eq_none_iff.1 hhead

/-- What is in the scope of a branch is in its pipeline. -/
theorem pipeline?_scope (h : Layout p anchors) {j t : Nat} (hj : p.scope? j = some t) :
    p.pipeline? j = p.pipeline? t := by
  obtain ⟨hc, -, -, hlt, hblock⟩ := h.block j t hj
  refine h.pipeline?_eq (Nat.le_of_lt hlt) fun k hk hkj => ?_
  rcases Nat.lt_or_eq_of_le hkj with hlt | rfl
  · exact (h.block k t (hblock k hk hlt)).1
  · exact hc

/-- The scope of a branch is a block of ids right behind it. -/
theorem exists_scope (h : Layout p anchors) (t : Nat) :
    ∃ n, ∀ j, p.scope? j = some t ↔ t < j ∧ j ≤ t + n := by
  by_cases hsome : ∃ j, p.scope? j = some t
  · obtain ⟨j₀, hj₀⟩ := hsome
    let last := Nat.findGreatest (fun j => p.scope? j = some t) p.nodes.size
    have hlast : p.scope? last = some t :=
      Nat.findGreatest_spec (P := fun j => p.scope? j = some t)
        (Nat.le_of_lt (Program.lt_size_of_scope? hj₀)) hj₀
    obtain ⟨-, -, -, htl, hblock⟩ := h.block last t hlast
    refine ⟨last - t, fun j => ⟨fun hj => ?_, fun hj => ?_⟩⟩
    · have hle : j ≤ last :=
        Nat.le_findGreatest (Nat.le_of_lt (Program.lt_size_of_scope? hj)) hj
      exact ⟨(h.block j t hj).2.2.2.1, by omega⟩
    · rcases Nat.lt_or_eq_of_le (show j ≤ last by omega) with hlt | rfl
      · exact hblock j hj.1 hlt
      · exact hlast
  · refine ⟨0, fun j => ⟨fun hj => absurd ⟨j, hj⟩ hsome, fun hj => by omega⟩⟩

end Layout

-- ============================================================================
-- Reach
-- ============================================================================

namespace Plan

/-- Every source is a root. -/
theorem isRoot_of_isSource {p : Program} (hp : p.Indexed) (hw : p.Wired) {i : Nat} {node : Node}
    (hnode : p.node? i = some node) (hsource : node.kind.isSource = true) : p.IsRoot i := by
  have hmem : node ∈ p.nodes := by
    unfold Program.node? at hnode
    exact Array.mem_of_getElem? hnode
  match hkind : node.kind with
  | .finiteSource literal => exact .inl ⟨node, hmem, hp i node hnode, .inl ⟨literal, hkind⟩⟩
  | .liveSource literal => exact .inl ⟨node, hmem, hp i node hnode, .inr ⟨literal, hkind⟩⟩
  | .poolAccess pool => exact .inr (hw.subscribed i node pool hnode hkind)
  | .operator | .lens _ _ | .branch _ | .poolWrite _ =>
    rw [hkind] at hsource
    cases hsource

/-- Every node is led to from a root: from the source of its pipeline, node by node. -/
theorem exists_root_path {p : Program} {anchors : Nat → Nat} (h : Layout p anchors) (hw : p.Wired)
    {i : Nat} (hi : i < p.nodes.size) :
    ∃ root ∈ roots p, Relation.ReflTransGen p.Leads root i := by
  induction i with
  | zero =>
    obtain ⟨node, hnode⟩ : ∃ node, p.node? 0 = some node := ⟨_, Array.getElem?_eq_getElem hi⟩
    refine ⟨0, mem_roots_iff.2 (isRoot_of_isSource h.indexed hw hnode ?_), .refl⟩
    have hc : ¬p.continues 0 := fun hc => Nat.lt_irrefl 0 (h.first 0 hc)
    rw [Program.continues_eq hnode, Bool.not_eq_true', Bool.not_eq_false] at hc
    exact hc
  | succ i ih =>
    obtain ⟨node, hnode⟩ : ∃ node, p.node? (i + 1) = some node :=
      ⟨_, Array.getElem?_eq_getElem hi⟩
    by_cases hc : p.continues (i + 1)
    · obtain ⟨root, hroot, hpath⟩ := ih (Nat.lt_of_succ_lt hi)
      have hstep : i + 1 ∈ p.pipeTargets i := h.mem_pipeTargets.2 ⟨hc, .inl rfl⟩
      exact ⟨root, hroot, hpath.tail (Program.leads_of_mem_pipeTargets hstep)⟩
    · refine ⟨i + 1, mem_roots_iff.2 (isRoot_of_isSource h.indexed hw hnode ?_), .refl⟩
      rw [Program.continues_eq hnode, Bool.not_eq_true', Bool.not_eq_false] at hc
      exact hc

/-- A search from the roots leaves no node out. -/
theorem unreachable_eq_zero {p : Program} {anchors : Nat → Nat} (h : Layout p anchors)
    (hw : p.Wired) : (ofProgram p).stats.unreachable = 0 := by
  have hnone : {i | i < p.nodes.size ∧
      ∀ root ∈ roots p, ¬ Relation.ReflTransGen p.Leads root i} = ∅ := by
    refine Set.eq_empty_of_forall_notMem fun i hi => ?_
    obtain ⟨root, hroot, hpath⟩ := exists_root_path h hw hi.1
    exact hi.2 root hroot hpath
  rw [unreachable_eq, hnone, Set.ncard_empty]

end Plan

/-- Every source text builds a regular graph. -/
theorem Program.parse_regular (source : String) : (parse source).Regular := by
  obtain ⟨anchors, h⟩ := parse_layout source
  obtain ⟨hw, -⟩ := parse_wired source
  constructor
  case nodes => exact h.indexed
  case connections => exact hw.connected
  case counted => exact h.counted
  case pipelines =>
    intro k hk
    obtain ⟨i, hi⟩ := hw.inhabited k hk
    obtain ⟨first, last, hle, hrun⟩ := h.exists_run hi
    exact ⟨first, last, hle, hrun, fun i node hnode hi => h.isSource_iff hrun hnode hi⟩
  case chained =>
    intro i hi hsame
    exact h.pipeTargets_chained ((h.continues_succ_iff hi).2 hsame)
  case ended =>
    intro i hother
    refine h.pipeTargets_ended fun hc => hother ?_
    exact (h.continues_succ_iff (Nat.lt_of_succ_lt (lt_size_of_continues hc))).1 hc
  case inside => exact fun j t hj => ⟨(h.block j t hj).2.2.1, h.pipeline?_scope hj⟩
  case scopes => exact fun t _ => h.exists_scope t
  case reached => exact Plan.unreachable_eq_zero h hw

end Sluice
