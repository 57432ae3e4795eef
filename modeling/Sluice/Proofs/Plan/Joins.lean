/-
  Sluice.Proofs.Plan.Joins

  Where a run goes on behind a branch that is not taken, in any graph at all. From every node
  there is at most one way along first successors, so these make a chain from the branch, and its
  join is the first node on the chain outside of its scope.

  The search for the join is cut off after as many steps as there are nodes. A chain that leaves
  the scope does so earlier: if it came to a node twice it would go round for ever, so the nodes
  that it passes in the scope are all different.
-/

import Mathlib.Data.Finset.Card
import Mathlib.Data.Fintype.Pigeonhole
import Mathlib.Logic.Relation
import Sluice.Proofs.Program.Layout

namespace Sluice

namespace Program

variable {p : Program} {branch : NodeId}

-- ============================================================================
-- First successors
-- ============================================================================

/-- Whether data flows out of a node over a connection. -/
def FlowsOver (p : Program) (i : NodeId) (c : Connection) : Prop :=
  c.source = i ∧ c.kind = .pipe ∧ i < p.nodes.size ∧ c.target < p.nodes.size

/-- The first connection over which data flows out of a node, in the order of the connections,
leads to another one. -/
def FirstSuccessor (p : Program) (i j : NodeId) : Prop :=
  ∃ before c after, p.connections.toList = before ++ c :: after ∧ p.FlowsOver i c ∧
    c.target = j ∧ ∀ d ∈ before, ¬ p.FlowsOver i d

theorem head?_pipeTargets_iff {i j : NodeId} :
    (p.pipeTargets i).head? = some j ↔ p.FirstSuccessor i j := by
  have hflows : ∀ c : Connection,
      (c.source = i ∧ c.kind = .pipe ∧ p.isInside c = true) ↔ p.FlowsOver i c := by
    intro c
    unfold isInside FlowsOver
    rw [Bool.and_eq_true, decide_eq_true_eq, decide_eq_true_eq]
    constructor
    · rintro ⟨rfl, hrest⟩
      exact ⟨rfl, hrest⟩
    · rintro ⟨rfl, hrest⟩
      exact ⟨rfl, hrest⟩
  unfold pipeTargets FirstSuccessor
  rw [List.head?_filterMap, List.findSome?_eq_some_iff]
  simp [hflows, and_assoc]

theorem FirstSuccessor.lt_size {i j : NodeId} (h : p.FirstSuccessor i j) :
    i < p.nodes.size ∧ j < p.nodes.size := by
  obtain ⟨before, c, after, -, hflows, rfl, -⟩ := h
  exact ⟨hflows.2.2.1, hflows.2.2.2⟩

theorem FirstSuccessor.unique {i j k : NodeId} (hj : p.FirstSuccessor i j)
    (hk : p.FirstSuccessor i k) : j = k := by
  rw [← head?_pipeTargets_iff] at hj hk
  exact Option.some.inj (hj.symm.trans hk)

/-- One step of the chain of first successors within the scope of a branch. -/
def Stays (p : Program) (branch i j : NodeId) : Prop :=
  p.FirstSuccessor i j ∧ p.scope? j = some branch

theorem Stays.unique {i j k : NodeId} (hj : p.Stays branch i j) (hk : p.Stays branch i k) :
    j = k :=
  hj.1.unique hk.1

-- ============================================================================
-- The search for a join
-- ============================================================================

theorem joinFrom_of_successor {i j : NodeId} (h : p.FirstSuccessor i j) (fuel : Nat) :
    p.joinFrom branch (fuel + 1) i =
      if p.scope? j = some branch then p.joinFrom branch fuel j else some j := by
  obtain ⟨node, hnode⟩ : ∃ node, p.node? j = some node :=
    ⟨_, Array.getElem?_eq_getElem h.lt_size.2⟩
  have hscope : p.scope? j = node.scope := by
    unfold scope?
    rw [hnode, Option.bind_some]
  rw [joinFrom, head?_pipeTargets_iff.2 h, hscope]
  simp only [hnode]

theorem joinFrom_of_end {i : NodeId} (h : ∀ j, ¬ p.FirstSuccessor i j) (fuel : Nat) :
    p.joinFrom branch fuel i = none := by
  cases fuel with
  | zero => rfl
  | succ fuel =>
    have hnone : (p.pipeTargets i).head? = none := by
      refine Option.eq_none_iff_forall_ne_some.2 fun j hj => ?_
      exact h j (head?_pipeTargets_iff.1 hj)
    rw [joinFrom, hnone]

/-- From a node the chain takes `k` steps within the scope, and the next one leads out of it, to
`target`. -/
inductive LeavesAfter (p : Program) (branch target : NodeId) : Nat → NodeId → Prop
  | leave {i} : p.FirstSuccessor i target → p.scope? target ≠ some branch →
    LeavesAfter p branch target 0 i
  | stay {k i j} : p.Stays branch i j → LeavesAfter p branch target k j →
    LeavesAfter p branch target (k + 1) i

/-- A chain that leaves the scope is followed out of it, given enough steps. -/
theorem LeavesAfter.joinFrom {target i : NodeId} {k fuel : Nat}
    (h : p.LeavesAfter branch target k i) (hk : k < fuel) :
    p.joinFrom branch fuel i = some target := by
  induction h generalizing fuel with
  | leave hnext hout =>
    obtain ⟨fuel, rfl⟩ := Nat.exists_eq_add_one_of_ne_zero (Nat.ne_of_gt hk)
    rw [joinFrom_of_successor hnext, if_neg hout]
  | stay hstays _ ih =>
    obtain ⟨fuel, rfl⟩ := Nat.exists_eq_add_one_of_ne_zero (Nat.ne_of_gt (Nat.zero_lt_of_lt hk))
    rw [joinFrom_of_successor hstays.1, if_pos hstays.2]
    exact ih (Nat.lt_of_succ_lt_succ hk)

/-- What is found is where the chain leaves the scope. -/
theorem exists_leavesAfter {fuel : Nat} {i target : NodeId}
    (h : p.joinFrom branch fuel i = some target) : ∃ k, p.LeavesAfter branch target k i := by
  induction fuel generalizing i with
  | zero => cases h
  | succ fuel ih =>
    by_cases hend : ∀ j, ¬ p.FirstSuccessor i j
    · rw [joinFrom_of_end hend] at h
      cases h
    · obtain ⟨j, hnext⟩ := not_forall_not.1 hend
      rw [joinFrom_of_successor hnext] at h
      split at h
      · next hin =>
        obtain ⟨k, hk⟩ := ih h
        exact ⟨k + 1, .stay ⟨hnext, hin⟩ hk⟩
      · next hout =>
        cases h
        exact ⟨0, .leave hnext hout⟩

-- ============================================================================
-- Chains that leave the scope
-- ============================================================================

namespace LeavesAfter

variable {target i : NodeId} {k : Nat}

/-- There is only one way, so the number of steps is determined. -/
theorem unique {target' : NodeId} {k' : Nat} (h : p.LeavesAfter branch target k i)
    (h' : p.LeavesAfter branch target' k' i) : k = k' := by
  induction h generalizing k' with
  | leave hnext hout =>
    cases h' with
    | leave _ _ => rfl
    | stay hstays _ =>
      rw [hnext.unique hstays.1] at hout
      exact absurd hstays.2 hout
  | stay hstays _ ih =>
    cases h' with
    | leave hnext hout =>
      rw [hnext.unique hstays.1] at hout
      exact absurd hstays.2 hout
    | stay hstays' hrest =>
      rw [hstays.unique hstays'] at ih
      rw [ih hrest]

/-- A step within the scope is one step less to go. -/
theorem step {j : NodeId} (h : p.LeavesAfter branch target k i) (hstep : p.Stays branch i j) :
    ∃ rest, k = rest + 1 ∧ p.LeavesAfter branch target rest j := by
  cases h with
  | leave hnext hout =>
    rw [hnext.unique hstep.1] at hout
    exact absurd hstep.2 hout
  | stay hstays hrest =>
    rw [hstays.unique hstep] at hrest
    exact ⟨_, rfl, hrest⟩

/-- Whatever the chain passes within the scope, it leaves the scope behind it. -/
theorem along {j : NodeId} (h : p.LeavesAfter branch target k i)
    (hpath : Relation.ReflTransGen (p.Stays branch) i j) :
    ∃ rest ≤ k, p.LeavesAfter branch target rest j := by
  induction hpath with
  | refl => exact ⟨k, Nat.le_refl k, h⟩
  | tail _ hstep ih =>
    obtain ⟨rest, hle, hrest⟩ := ih
    obtain ⟨rest', rfl, hrest'⟩ := hrest.step hstep
    exact ⟨rest', Nat.le_of_succ_le hle, hrest'⟩

/-- So it never comes to a node twice. -/
theorem not_cycle (h : p.LeavesAfter branch target k i) :
    ¬ Relation.TransGen (p.Stays branch) i i := by
  intro hcycle
  obtain ⟨j, hstep, hback⟩ := Relation.TransGen.head'_iff.1 hcycle
  obtain ⟨rest, rfl, hrest⟩ := h.step hstep
  obtain ⟨again, hle, hagain⟩ := hrest.along hback
  have := h.unique hagain
  omega

/-- The nodes from which the chain leaves the scope after different numbers of steps are different
nodes, so there are fewer steps than nodes. -/
theorem lt_size (h : p.LeavesAfter branch target k i) : k < p.nodes.size := by
  have hpassed : ∃ passed : Finset Nat, passed.card = k + 1 ∧
      ∀ x ∈ passed, x < p.nodes.size ∧ ∃ m ≤ k, p.LeavesAfter branch target m x := by
    induction h with
    | @leave i hnext hout =>
      refine ⟨{i}, rfl, fun x hx => ?_⟩
      rw [Finset.mem_singleton] at hx
      subst hx
      exact ⟨hnext.lt_size.1, 0, Nat.le_refl 0, .leave hnext hout⟩
    | @stay k i j hstays hrest ih =>
      obtain ⟨passed, hcard, hpassed⟩ := ih
      have hnew : i ∉ passed := by
        intro hi
        obtain ⟨-, m, hm, hleaves⟩ := hpassed i hi
        have := hleaves.unique (.stay hstays hrest)
        omega
      refine ⟨insert i passed, by rw [Finset.card_insert_of_notMem hnew, hcard], ?_⟩
      intro x hx
      rcases Finset.mem_insert.1 hx with rfl | hx
      · exact ⟨hstays.1.lt_size.1, k + 1, Nat.le_refl _, .stay hstays hrest⟩
      · obtain ⟨hlt, m, hm, hleaves⟩ := hpassed x hx
        exact ⟨hlt, m, Nat.le_succ_of_le hm, hleaves⟩
  obtain ⟨passed, hcard, hpassed⟩ := hpassed
  have hsub : passed ⊆ Finset.range p.nodes.size :=
    fun x hx => Finset.mem_range.2 (hpassed x hx).1
  have hle := Finset.card_le_card hsub
  rw [hcard, Finset.card_range] at hle
  exact hle

end LeavesAfter

/-- Leaving after some number of steps is leaving from some node that the chain passes. -/
theorem leavesAfter_iff {target i : NodeId} :
    (∃ k, p.LeavesAfter branch target k i) ↔
      ∃ last, Relation.ReflTransGen (p.Stays branch) i last ∧ p.FirstSuccessor last target ∧
        p.scope? target ≠ some branch := by
  constructor
  · rintro ⟨k, h⟩
    induction h with
    | @leave i hnext hout => exact ⟨i, .refl, hnext, hout⟩
    | stay hstays _ ih =>
      obtain ⟨last, hpath, hrest⟩ := ih
      exact ⟨last, hpath.head hstays, hrest⟩
  · rintro ⟨last, hpath, hnext, hout⟩
    induction hpath using Relation.ReflTransGen.head_induction_on with
    | refl => exact ⟨0, .leave hnext hout⟩
    | head hstep _ ih =>
      obtain ⟨k, hk⟩ := ih
      exact ⟨k + 1, .stay hstep hk⟩

-- ============================================================================
-- Chains that do not
-- ============================================================================

/-- A chain that always goes on within the scope goes round. -/
theorem exists_cycle_of_stays {start : NodeId}
    (h : ∀ i, Relation.ReflTransGen (p.Stays branch) start i → ∃ j, p.Stays branch i j) :
    ∃ i, Relation.ReflTransGen (p.Stays branch) start i ∧
      Relation.TransGen (p.Stays branch) i i := by
  -- The nodes of the chain, in order.
  let passed : Nat → {i // Relation.ReflTransGen (p.Stays branch) start i} := fun k =>
    Nat.rec ⟨start, .refl⟩ (fun _ at' => ⟨(h at'.1 at'.2).choose,
      at'.2.tail (h at'.1 at'.2).choose_spec⟩) k
  have hstep : ∀ k, p.Stays branch (passed k).1 (passed (k + 1)).1 := fun k =>
    (h (passed k).1 (passed k).2).choose_spec
  have hpath : ∀ {a b : Nat}, a < b →
      Relation.TransGen (p.Stays branch) (passed a).1 (passed b).1 := by
    intro a b hab
    induction hab with
    | refl => exact .single (hstep a)
    | step _ ih => exact ih.tail (hstep _)
  let index : Nat → Fin p.nodes.size := fun k => ⟨(passed k).1, (hstep k).1.lt_size.1⟩
  obtain ⟨a, b, hlt, heq⟩ : ∃ a b, a < b ∧ index a = index b := by
    obtain ⟨a, b, hne, heq⟩ := Finite.exists_ne_map_eq_of_infinite index
    rcases Nat.lt_or_gt_of_ne hne with hlt | hlt
    · exact ⟨a, b, hlt, heq⟩
    · exact ⟨b, a, hlt, heq.symm⟩
  have hround := hpath hlt
  have hsame : (passed a).1 = (passed b).1 := congrArg Fin.val heq
  rw [← hsame] at hround
  exact ⟨(passed a).1, (passed a).2, hround⟩

/-- A chain that never leaves the scope ends within it or goes round. -/
theorem ends_or_cycles {start : NodeId}
    (h : ∀ target k, ¬ p.LeavesAfter branch target k start) :
    (∃ last, Relation.ReflTransGen (p.Stays branch) start last ∧
        ∀ j, ¬ p.FirstSuccessor last j) ∨
      ∃ i, Relation.ReflTransGen (p.Stays branch) start i ∧
        Relation.TransGen (p.Stays branch) i i := by
  by_cases hend : ∃ last, Relation.ReflTransGen (p.Stays branch) start last ∧
      ∀ j, ¬ p.FirstSuccessor last j
  · exact .inl hend
  · refine .inr (exists_cycle_of_stays fun i hpath => ?_)
    obtain ⟨j, hnext⟩ : ∃ j, p.FirstSuccessor i j := by
      by_contra hnone
      exact hend ⟨i, hpath, not_exists.1 hnone⟩
    refine ⟨j, hnext, ?_⟩
    by_contra hout
    obtain ⟨k, hk⟩ := leavesAfter_iff.2 ⟨i, hpath, hnext, hout⟩
    exact h j k hk

-- ============================================================================
-- Joins
-- ============================================================================

theorem joinPoint_eq_some_iff {target : NodeId} :
    p.joinPoint branch = some target ↔ ∃ k, p.LeavesAfter branch target k branch :=
  ⟨exists_leavesAfter, fun ⟨_, h⟩ => h.joinFrom h.lt_size⟩

/-- In every graph and for every branch the join is where the chain of first successors leaves the
branch's scope. There is none exactly if the chain ends within the scope or goes round in it. The
search may take as many steps as there are nodes, and with more it would find nothing else. -/
theorem joins_where_scope_ends (p : Program) (branch : NodeId) :
    (∀ target, p.joinPoint branch = some target ↔
      ∃ last, Relation.ReflTransGen (p.Stays branch) branch last ∧
        p.FirstSuccessor last target ∧ p.scope? target ≠ some branch) ∧
    (p.joinPoint branch = none ↔
      (∃ last, Relation.ReflTransGen (p.Stays branch) branch last ∧
        ∀ j, ¬ p.FirstSuccessor last j) ∨
      ∃ i, Relation.ReflTransGen (p.Stays branch) branch i ∧
        Relation.TransGen (p.Stays branch) i i) ∧
    ∀ bound, p.nodes.size ≤ bound → p.joinFrom branch bound branch = p.joinPoint branch := by
  refine ⟨fun target => joinPoint_eq_some_iff.trans leavesAfter_iff, ⟨fun hnone => ?_, ?_⟩, ?_⟩
  · refine ends_or_cycles fun target k h => ?_
    rw [joinPoint_eq_some_iff.2 ⟨k, h⟩] at hnone
    cases hnone
  · intro hstays
    refine Option.eq_none_iff_forall_ne_some.2 fun target hjoin => ?_
    obtain ⟨k, h⟩ := joinPoint_eq_some_iff.1 hjoin
    rcases hstays with ⟨last, hpath, hend⟩ | ⟨i, hpath, hcycle⟩
    · obtain ⟨rest, -, hrest⟩ := h.along hpath
      cases hrest with
      | leave hnext _ => exact hend _ hnext
      | stay hstays _ => exact hend _ hstays.1
    · obtain ⟨rest, -, hrest⟩ := h.along hpath
      exact hrest.not_cycle hcycle
  · intro bound hbound
    match hjoin : p.joinPoint branch with
    | some target =>
      obtain ⟨k, h⟩ := joinPoint_eq_some_iff.1 hjoin
      exact h.joinFrom (Nat.lt_of_lt_of_le h.lt_size hbound)
    | none =>
      refine Option.eq_none_iff_forall_ne_some.2 fun target hfound => ?_
      rw [joinPoint_eq_some_iff.2 (exists_leavesAfter hfound)] at hjoin
      cases hjoin

end Program

end Sluice
