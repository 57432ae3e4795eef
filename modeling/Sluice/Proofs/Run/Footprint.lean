/-
  Sluice.Proofs.Run.Footprint

  What a run from a root can touch. It comes to the nodes that data flows to, and a write among
  them sets off the subscriptions on its pool, which come to further nodes, and so on. The pools
  written at these nodes, the pools read there by arguments or by operators of the host, and the
  operators called there are the footprint of the root. It is read off the program, and no run
  from the root leaves it.
-/

import Sluice.Proofs.Host.Functional
import Sluice.Proofs.Run.Events
import Sluice.Proofs.Run.Feedback
import Sluice.Proofs.Run.Tandem

namespace Sluice

variable {σ : Type}

namespace Program

/-- A node that a run from a root can come to, in the pipeline of the root or in those of the
subscriptions that its writes set off. -/
inductive Triggered (p : Program) (root : NodeId) : NodeId → Prop
  | root : p.Triggered root root
  | flow {id target : NodeId} (h : p.Triggered root id) (hflow : target ∈ p.pipeTargets id) :
    p.Triggered root target
  | notify {id : NodeId} {node : Node} {pool : String} {s : Subscription}
    (h : p.Triggered root id) (hnode : p.node? id = some node)
    (hkind : node.kind = .poolWrite pool) (hs : s ∈ p.subscribersOf pool) :
    p.Triggered root s.root

/-- A pool that is written from a root. -/
def Writes (p : Program) (root : NodeId) (pool : String) : Prop :=
  ∃ id node, p.Triggered root id ∧ p.node? id = some node ∧ node.kind = .poolWrite pool

/-- An operator that is called from a root: at a node, or by an operator of the host. -/
inductive Calls (p : Program) (operators : List (Operator σ)) (root : NodeId) : String → Prop
  | node {id : NodeId} {node : Node} {name : String} (h : p.Triggered root id)
    (hnode : p.node? id = some node) (hname : name ∈ node.called) : p.Calls operators root name
  | operator {op : Operator σ} {name : String} (h : p.Calls operators root op.name)
    (hop : op ∈ operators) (hname : op.Calls name) : p.Calls operators root name

/-- A pool that is read from a root: by an argument that refers to it, or by an operator of the
host. -/
inductive Reads (p : Program) (operators : List (Operator σ)) (root : NodeId) : String → Prop
  | argument {id : NodeId} {node : Node} {argument : Argument} {pool : String}
    (h : p.Triggered root id) (hnode : p.node? id = some node)
    (hargument : argument ∈ node.evaluated) (hpool : argument.poolReference? = some pool) :
    p.Reads operators root pool
  | operator {op : Operator σ} {pool : String} (h : p.Calls operators root op.name)
    (hop : op ∈ operators) (hpool : op.Reads pool) : p.Reads operators root pool

/-- A pool that is read or written from a root. -/
def Touches (p : Program) (operators : List (Operator σ)) (root : NodeId) (pool : String) : Prop :=
  p.Reads operators root pool ∨ p.Writes root pool

/-- Roots of which none writes what the other touches. -/
structure Independent (p : Program) (operators : List (Operator σ)) (a b : NodeId) : Prop where
  left : ∀ pool, p.Writes a pool → ¬ p.Touches operators b pool
  right : ∀ pool, p.Writes b pool → ¬ p.Touches operators a pool

/-- What a run from a root comes to, the connections of a parsed program lead to. -/
theorem reaches_of_triggered {source : String} {root id : NodeId}
    (h : (parse source).Triggered root id) : (parse source).Reaches root id := by
  obtain ⟨-, hfeeds⟩ := parse_wired source
  induction h with
  | root => exact .refl
  | flow _ hflow ih => exact ih.tail (leads_of_mem_pipeTargets hflow)
  | notify _ hnode hkind hs ih => exact ih.tail (hfeeds _ _ _ _ hnode hkind hs)

section

variable {p : Program} {anchors : Nat → Nat} {root : NodeId}

/-- From a finite source a run comes to a node that accesses a pool only where it has written the
pool. -/
theorem writes_of_poolAccess (hlayout : Layout p anchors) (hwired : p.Wired)
    (hroot : root ∈ (Plan.ofProgram p).finiteRoots) {id : NodeId} {node : Node} {pool : String}
    (h : p.Triggered root id) (hnode : p.node? id = some node)
    (hkind : node.kind = .poolAccess pool) : p.Writes root pool := by
  cases h with
  | root =>
    simp only [Plan.ofProgram] at hroot
    obtain ⟨found, hfound, hfinite⟩ := Plan.mem_rootsWhere hlayout.indexed hroot
    rw [hnode] at hfound
    cases hfound
    rw [hkind] at hfinite
    cases hfinite
  | flow _ hflow =>
    -- Data flows to nodes that continue a pipeline.
    have hcontinues := (hlayout.mem_pipeTargets.1 hflow).1
    rw [continues_eq hnode, hkind] at hcontinues
    cases hcontinues
  | @notify written writer pool' s hwritten hwriter hkind' hs =>
    obtain ⟨hmem, hpool⟩ := List.mem_filter.1 hs
    obtain ⟨found, hfound, haccess⟩ := hwired.rooted s hmem
    rw [hnode] at hfound
    cases hfound
    rw [hkind] at haccess
    cases haccess
    obtain rfl : s.pool = pool' := of_decide_eq_true hpool
    exact ⟨written, writer, hwritten, hwriter, hkind'⟩

/-- The footprint of a finite source is never left. -/
theorem territory_triggered (hlayout : Layout p anchors) (hwired : p.Wired)
    (operators : List (Operator σ)) {ctx : RunContext σ} (hprogram : ctx.program = p)
    (hplan : ctx.plan = .ofProgram p) (hroot : root ∈ (Plan.ofProgram p).finiteRoots) :
    ctx.Territory (p.Triggered root) (p.Touches operators root) (p.Writes root)
      (p.Calls operators root) := by
  constructor
  case toClosed => exact closed_of_flow hlayout.indexed hprogram hplan .flow
  all_goals rw [hprogram]
  case evaluated =>
    exact fun hid hnode hargument hpool => .inl (.argument hid hnode hargument hpool)
  case accessed =>
    exact fun hid hnode hkind => .inr (writes_of_poolAccess hlayout hwired hroot hid hnode hkind)
  case called => exact .node
  case written => exact fun hid hnode hkind => ⟨_, _, hid, hnode, hkind⟩
  case notified =>
    rw [hplan]
    exact .notify

end

end Program

end Sluice
