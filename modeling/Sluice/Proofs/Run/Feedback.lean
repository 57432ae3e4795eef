/-
  Sluice.Proofs.Run.Feedback

  Subscribers that run below each other are all different, unless the plan of the program warns of
  feedback. A walk stays among the nodes that its root leads to, and a write leads to the
  subscriptions on its pool. So the roots of the subscriptions that are running lead to each
  other, from the outermost to the innermost; one that ran below itself would lead back to
  itself, and the plan would have found it. Where there are at least as many levels as
  subscriptions, the deepest level is therefore never passed.
-/

import Mathlib.Data.List.Perm.Subperm
import Sluice.Proofs.Plan.Groups
import Sluice.Proofs.Program.Wiring
import Sluice.Proofs.Run.Keeping
import Sluice.Session

namespace Sluice

variable {σ : Type}

-- ============================================================================
-- Where a walk can get to
-- ============================================================================

namespace Program

variable {p : Program} {anchors : Nat → Nat}

/-- One node leads to another over any number of connections. -/
def Reaches (p : Program) : Nat → Nat → Prop :=
  Relation.ReflTransGen p.Leads

/-- Where a run goes after a node is where data flows from it. -/
theorem mem_pipeTargets_of_next? {id target : Nat} {packet : Packet}
    (h : (Plan.ofProgram p).next? id packet = some target) : target ∈ p.pipeTargets id := by
  rw [← Layout.successors_eq]
  unfold Plan.next? at h
  split at h
  · cases h
  · next only honly =>
    cases h
    rw [honly]
    exact List.mem_cons_self
  · next first others hothers hseveral =>
    rw [hseveral]
    rcases Option.or_eq_some_iff.1 h with hfound | ⟨-, hfirst⟩
    · exact List.mem_of_find?_eq_some hfound
    · cases hfirst
      exact List.mem_cons_self

variable {nodes : Nat → Prop}

/-- Following first successors is following the flow of data. -/
theorem within_of_joinFrom (hflow : ∀ {id target}, nodes id → target ∈ p.pipeTargets id →
      nodes target) {branch fuel current target : Nat} (hcurrent : nodes current)
    (h : p.joinFrom branch fuel current = some target) : nodes target := by
  induction fuel generalizing current with
  | zero => cases h
  | succ fuel ih =>
    unfold joinFrom at h
    split at h
    · cases h
    · next next hhead =>
      have hnext : nodes next := hflow hcurrent (List.mem_of_mem_head? hhead)
      split at h
      · cases h
      · split at h
        · exact ih hnext h
        · cases h
          exact hnext

/-- A set of nodes that data never flows out of is never left by a walk. -/
theorem closed_of_flow (hp : p.Indexed) {ctx : RunContext σ} (hprogram : ctx.program = p)
    (hplan : ctx.plan = .ofProgram p)
    (hflow : ∀ {id target}, nodes id → target ∈ p.pipeTargets id → nodes target) :
    ctx.Closed nodes where
  next {id target packet} hid hnext := by
    rw [hplan] at hnext
    exact hflow hid (mem_pipeTargets_of_next? hnext)
  join {id target node} hid hnode hjoin := by
    rw [hprogram] at hnode
    rw [hplan, hp id node hnode] at hjoin
    have hjoined : (if node.kind.expects?.isSome then p.joinPoint node.id else none) =
        some target := by
      unfold node? at hnode
      unfold Plan.join? at hjoin
      simp only [Plan.ofProgram, Array.getElem?_map, hnode, Option.map_some, Option.join_some]
        at hjoin
      exact hjoin
    split at hjoined
    · rw [hp id node hnode] at hjoined
      exact within_of_joinFrom hflow hid hjoined
    · cases hjoined

/-- The nodes that a node leads to are never left by a walk. -/
theorem closed_reaches (h : Layout p anchors) {ctx : RunContext σ} (hprogram : ctx.program = p)
    (hplan : ctx.plan = .ofProgram p) (root : Nat) : ctx.Closed (p.Reaches root) :=
  closed_of_flow h.indexed hprogram hplan fun hid htarget =>
    hid.tail (leads_of_mem_pipeTargets htarget)

end Program

-- ============================================================================
-- Chains of subscribers
-- ============================================================================

/-- Roots of different subscriptions that all lead to a node. -/
structure Program.Chain (p : Program) (chain : List Nat) (target : Nat) : Prop where
  distinct : chain.Nodup
  subscribed : ∀ root ∈ chain, root ∈ p.subscriptions.map (·.root)
  leading : ∀ root ∈ chain, p.Reaches root target

namespace Program.Chain

variable {p : Program} {chain : List Nat} {root : Nat}

theorem nil (p : Program) (root : Nat) : p.Chain [] root :=
  ⟨List.nodup_nil, List.forall_mem_nil _, List.forall_mem_nil _⟩

/-- There are no more roots in a chain than subscriptions. -/
theorem length_le (h : p.Chain chain root) : chain.length ≤ p.subscriptions.length := by
  have hle := (List.subperm_of_subset h.distinct h.subscribed).length_le
  rw [List.length_map] at hle
  exact hle

/-- A write that a chain leads to makes the chain longer by a subscription on the pool, as the
subscription is not in it: it would reach itself. -/
theorem cons (h : p.Chain chain root) (hfeedback : Plan.feedback p = []) {id : Nat}
    (hid : p.Reaches root id) {s : Subscription} (hs : s ∈ p.subscriptions)
    (hleads : p.Leads id s.root) : p.Chain (s.root :: chain) s.root := by
  have hreaches : ∀ u ∈ chain, p.Reaches u id := fun u hu => (h.leading u hu).trans hid
  constructor
  case distinct =>
    refine List.nodup_cons.2 ⟨fun hin => ?_, h.distinct⟩
    have hfalse := Plan.reachesItself_of_feedback hfeedback hs
    obtain heq | ⟨next, hfirst, hrest⟩ := (hreaches _ hin).cases_head
    · rw [← heq] at hleads
      rw [reachesItself_of_path hleads .refl] at hfalse
      cases hfalse
    · rw [reachesItself_of_path hfirst (hrest.tail hleads)] at hfalse
      cases hfalse
  case subscribed =>
    refine List.forall_mem_cons.2 ⟨?_, h.subscribed⟩
    exact List.mem_map.2 ⟨s, hs, rfl⟩
  case leading =>
    refine List.forall_mem_cons.2 ⟨.refl, fun u hu => ?_⟩
    exact (hreaches u hu).tail hleads

end Program.Chain

-- ============================================================================
-- Runs
-- ============================================================================

/-- A cause that is not the depth of subscribers. -/
def Cause.Shallow (c : Cause) : Prop :=
  ∀ bound, c ≠ .limitExceeded .subscriberDepth bound

/-- No failure so far was one of the depth of subscribers. -/
def Run.Shallow (r : Run σ) : Prop :=
  ∀ f ∈ r.errors, f.cause.Shallow

/-- Only a refused subscriber is too deep. -/
theorem lasting_shallow (ctx : RunContext σ) :
    Lasting ctx (fun _ => True) Cause.Shallow (fun _ => True) Run.Shallow where
  refusal e bound := by cases e <;> simp [Cause.ofRefusal]
  warn _ hr := hr
  retry hr := hr
  resolve _ _ hr := hr
  found _ _ _ _ _ := trivial
  attempt _ hr h := by
    cases h
    exact ⟨fun _ => hr, fun _ _ => trivial⟩
  print _ _ hr := hr
  render _ _ hr := hr
  step hr := hr
  cancelled _ _ bound := by simp
  exhausted bound := by simp
  start _ _ hr := hr
  complete _ _ hr := hr
  fail pipeline failure hr hcause f hf := by
    rcases Array.mem_push.1 hf with hbefore | rfl
    · exact hr f hbefore
    · exact hcause
  make _ hr _ := hr
  full _ _ := trivial
  write _ hr _ := hr
  notify hr := hr
  activate _ _ hr := hr
  preload _ hr := hr

/-- A program whose plan warns of no feedback, as a run sees it. -/
structure RunContext.Unfed (ctx : RunContext σ) (anchors : Nat → Nat) : Prop where
  layout : Layout ctx.program anchors
  plan : ctx.plan = .ofProgram ctx.program
  feeds : ∀ i node pool s, ctx.program.node? i = some node → node.kind = .poolWrite pool →
    s ∈ ctx.program.subscribersOf pool → ctx.program.Leads i s.root
  feedback : Plan.feedback ctx.program = []

namespace RunContext.Unfed

variable {ctx : RunContext σ} {anchors : Nat → Nat}

theorem of_context (engine : Engine σ) {program : Program} (hlayout : Layout program anchors)
    (hfeeds : ∀ i node pool s, program.node? i = some node → node.kind = .poolWrite pool →
      s ∈ program.subscribersOf pool → program.Leads i s.root)
    (hfeedback : (Plan.ofProgram program).feedbackPools = []) :
    (engine.context program).Unfed anchors :=
  ⟨hlayout, rfl, hfeeds, hfeedback⟩

/-- A subscriber of a write below a chain makes the chain longer. -/
theorem chain_cons (hctx : ctx.Unfed anchors) {chain : List Nat} {root id : Nat}
    (hchain : ctx.program.Chain chain root) (hid : ctx.program.Reaches root id) {node : Node}
    (hnode : ctx.program.node? id = some node) {pool : String}
    (hkind : node.kind = .poolWrite pool) {s : Subscription}
    (hs : s ∈ ctx.plan.subscribersOf pool) : ctx.program.Chain (s.root :: chain) s.root := by
  rw [hctx.plan] at hs
  exact hchain.cons hctx.feedback hid (List.mem_filter.1 hs).1
    (hctx.feeds id node pool s hnode hkind hs)

/-- A run below a chain of subscribers refuses none, if there are enough levels left for the
subscriptions that are not in the chain. The induction is on the levels: each of them makes the
chain longer by one. -/
theorem keeps_runNested (hctx : ctx.Unfed anchors) (levels : Nat) {chain : List Nat}
    {root : NodeId} (hchain : ctx.program.Chain chain root)
    (hlevels : ctx.program.subscriptions.length ≤ levels + chain.length) (seed : Option Value) :
    (Exec.runNested ctx levels root seed).Keeps (fun _ => True) Run.Shallow := by
  induction levels generalizing chain root seed with
  | zero =>
    refine Exec.keeps_runPipeline (lasting_shallow ctx)
      (Program.closed_reaches hctx.layout rfl hctx.plan root) ?_ .refl seed
    intro id node pool hid hnode hkind value
    refine Exec.keeps_forM _ fun s hs => ?_
    -- All subscriptions are in the chain, so there is none left to be refused.
    have hlength := (hctx.chain_cons hchain hid hnode hkind hs).length_le
    rw [List.length_cons] at hlength
    omega
  | succ levels ih =>
    refine Exec.keeps_runPipeline (lasting_shallow ctx)
      (Program.closed_reaches hctx.layout rfl hctx.plan root) ?_ .refl seed
    intro id node pool hid hnode hkind value
    refine Exec.keeps_forM _ fun s hs => Exec.keeps_unlessStopped ?_
    have hlonger := hctx.chain_cons hchain hid hnode hkind hs
    refine Exec.keeps_notifySubscriber (lasting_shallow ctx).toNoting (ih hlonger ?_ (some value))
    rw [List.length_cons]
    omega

/-- Runs from wherever a run can start refuse no subscriber. -/
theorem keeps_execute (hctx : ctx.Unfed anchors)
    (hdepth : ctx.program.subscriptions.length ≤ ctx.config.maxSubscriberDepth) (root : NodeId)
    (seed : Option Value) :
    (Exec.execute ctx root seed).Keeps (fun _ => True) Run.Shallow :=
  hctx.keeps_runNested _ (.nil _ root) hdepth seed

/-- A whole run refuses no subscriber. -/
theorem run_shallow {engine : Engine σ} {program : Program}
    (hctx : (engine.context program).Unfed anchors)
    (hdepth : program.subscriptions.length ≤ engine.config.maxSubscriberDepth) {s : σ}
    {finished : Engine.Finished σ} (hrun : engine.run program s = .ok finished) :
    ∀ f ∈ finished.report.errors, f.cause.Shallow := by
  have hruns := hctx.keeps_execute hdepth
  have hphases : ∀ initial,
      (Exec.runAll (engine.context program) initial).Keeps (fun _ => True) Run.Shallow :=
    fun initial => Exec.keeps_runAll (lasting_shallow _).toNoting initial
      (fun root _ => hruns root none) (fun root _ => hruns root none)
      fun s _ value => hruns s.root (some value)
  have hstart : ∀ initial, Exec.initialPools (engine.context program) = .ok initial →
      (Engine.startState (engine.context program) initial s).Shallow :=
    fun _ _ f hf => absurd hf (Array.not_mem_empty f)
  have hkeeps := Engine.run_keeps hstart (fun _ _ => trivial) hphases
  rw [hrun] at hkeeps
  obtain ⟨r, hshallow, hreport⟩ := hkeeps
  rw [hreport]
  exact fun f hf => hshallow f (Array.mem_toList_iff.1 hf)

end RunContext.Unfed

/-- A program of which the plan warns of no feedback never runs into the depth of subscribers,
if there are as many levels as subscriptions: whatever its host does, whatever values flow and
whichever branches are taken. -/
theorem Engine.subscribers_never_too_deep (engine : Engine σ) (source : String) (s : σ)
    (hfeedback : (Plan.ofProgram (.parse source)).feedbackPools = [])
    (hdepth : (Program.parse source).subscriptions.length ≤ engine.config.maxSubscriberDepth)
    {finished : Engine.Finished σ} (hrun : engine.run (.parse source) s = .ok finished) :
    ∀ f ∈ finished.report.errors, ∀ bound, f.cause ≠ .limitExceeded .subscriberDepth bound := by
  obtain ⟨anchors, hlayout⟩ := Program.parse_layout source
  obtain ⟨-, hfeeds⟩ := Program.parse_wired source
  exact (RunContext.Unfed.of_context engine hlayout hfeeds hfeedback).run_shallow hdepth hrun

/-- A write that is relayed from one pool to another. -/
def relaySource : String :=
  "a -> to_pool(b)\nb -> print\n~ 1 | to_pool(a)"

set_option maxRecDepth 4000 in
/-- Two levels are enough for the relay, which has two subscriptions. -/
theorem Engine.relay_never_too_deep :
    (Plan.ofProgram (.parse relaySource)).feedbackPools = [] ∧
    ∃ finished, (Program.parse relaySource).runWith { maxSubscriberDepth := 2 } = .ok finished ∧
      ∀ f ∈ finished.report.errors, ∀ bound,
        f.cause ≠ .limitExceeded .subscriberDepth bound := by
  obtain ⟨hdepth, hroots, hleads⟩ : (Program.parse relaySource).subscriptions.length ≤ 2 ∧
      (∀ s ∈ (Program.parse relaySource).subscriptions, s.root = 0 ∨ s.root = 2) ∧
      ∀ i ∈ [0, 1, 2, 3], ∀ j ∈ (Program.parse relaySource).allTargets i,
        j ∈ [1, 2, 3] ∧ i < j := by
    decide +kernel
  have hfeedback : (Plan.ofProgram (.parse relaySource)).feedbackPools = [] := by
    refine Plan.feedback_eq_nil fun s hs => ?_
    -- From a subscription the connections lead only on, to later nodes.
    have hroot : s.root ∈ [0, 1, 2, 3] := by
      rcases hroots s hs with hroot | hroot <;> rw [hroot] <;> decide
    have hon : ∀ i, i ∈ [1, 2, 3] ∧ s.root < i →
        ∀ j ∈ (Program.parse relaySource).allTargets i, j ∈ [1, 2, 3] ∧ s.root < j := by
      intro i hi j hj
      obtain ⟨hin, hlt⟩ := hleads i (List.mem_cons_of_mem 0 hi.1) j hj
      exact ⟨hin, Nat.lt_trans hi.2 hlt⟩
    exact Program.reachesItself_eq_false hon (hleads s.root hroot) fun h => Nat.lt_irrefl _ h.2
  refine ⟨hfeedback, ?_⟩
  have hends : (match (Program.parse relaySource).runWith { maxSubscriberDepth := 2 } with
      | .ok _ => true
      | .error _ => false) = true := by decide +kernel
  match hrun : (Program.parse relaySource).runWith { maxSubscriberDepth := 2 } with
  | .error halted =>
    rw [hrun] at hends
    cases hends
  | .ok finished =>
    refine ⟨finished, rfl, ?_⟩
    exact Engine.subscribers_never_too_deep (Session.engine { maxSubscriberDepth := 2 } [])
      relaySource _ hfeedback hdepth hrun

end Sluice
