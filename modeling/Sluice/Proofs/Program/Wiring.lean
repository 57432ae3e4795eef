/-
  Sluice.Proofs.Program.Wiring

  What a graph that source text builds holds beside its nodes and pipes. Connections are numbered
  like nodes, and both their ends are nodes. Subscriptions and nodes that access a pool belong to
  each other, every pipeline has a node, and every pool write is connected to the subscriptions
  on its pool.

  Building keeps this, as it keeps the layout, of which only the ends of the open pipeline are
  needed here: they are nodes, so a connection from them to a new node is a connection of nodes.
-/

import Sluice.Proofs.Plan.Search
import Sluice.Proofs.Program.Build

namespace Sluice

/-- Connections, subscriptions and pipelines fit the nodes of a graph. -/
structure Program.Wired (p : Program) : Prop where
  /-- A connection's id is its index, and both its ends are nodes. -/
  connected : ∀ (i : Nat) (c : Connection), p.connections[i]? = some c →
    c.id = i ∧ c.source < p.nodes.size ∧ c.target < p.nodes.size
  /-- A subscription starts at a node that accesses its pool. -/
  rooted : ∀ s ∈ p.subscriptions, ∃ node, p.node? s.root = some node ∧
    node.kind = .poolAccess s.pool
  /-- A node that accesses a pool starts a subscription. -/
  subscribed : ∀ i node pool, p.node? i = some node → node.kind = .poolAccess pool →
    ∃ s ∈ p.subscriptions, s.root = i
  /-- Every pipeline has a node. -/
  inhabited : ∀ k : Nat, k < p.pipelineCount → ∃ i, p.pipeline? i = some k

namespace Program.Wired

variable {p p' : Program} {node : Node}

/-- The empty graph. -/
theorem empty : Program.Wired {} where
  connected _ _ h := by simp at h
  rooted _ h := by cases h
  subscribed _ _ _ h := absurd (lt_size_of_node? h) (Nat.not_lt_zero _)
  inhabited k h := absurd h (Nat.not_lt_zero k)

theorem congr (h : p.Wired) (hnodes : p'.nodes = p.nodes)
    (hconnections : p'.connections = p.connections)
    (hsubscriptions : p'.subscriptions = p.subscriptions)
    (hcount : p'.pipelineCount = p.pipelineCount) : p'.Wired := by
  obtain ⟨nodes, connections, pools, subscriptions, imports, stubs, warnings, count⟩ := p'
  obtain rfl : nodes = p.nodes := hnodes
  obtain rfl : connections = p.connections := hconnections
  obtain rfl : subscriptions = p.subscriptions := hsubscriptions
  obtain rfl : count = p.pipelineCount := hcount
  exact ⟨h.connected, h.rooted, h.subscribed, h.inhabited⟩

/-- A subscription starts at a node. -/
theorem root_lt (h : p.Wired) {s : Subscription} (hs : s ∈ p.subscriptions) :
    s.root < p.nodes.size := by
  obtain ⟨node, hnode, -⟩ := h.rooted s hs
  exact lt_size_of_node? hnode

/-- Adding a node, with its subscription if it accesses a pool, and its pipeline if it starts
one. -/
theorem push (h : p.Wired) (hnodes : p'.nodes = p.nodes.push node)
    (hconnections : p'.connections = p.connections)
    (hkept : ∀ s ∈ p.subscriptions, s ∈ p'.subscriptions)
    (hadded : ∀ s ∈ p'.subscriptions, s ∈ p.subscriptions ∨
      (s.root = p.nodes.size ∧ node.kind = .poolAccess s.pool))
    (haccess : ∀ pool, node.kind = .poolAccess pool →
      ∃ s ∈ p'.subscriptions, s.root = p.nodes.size)
    (hcount : ∀ k : Nat, k < p'.pipelineCount → k < p.pipelineCount ∨ k = node.pipeline) :
    p'.Wired := by
  have hsize : p'.nodes.size = p.nodes.size.succ := by rw [hnodes, Array.size_push]
  have hlt : ∀ {i}, i < p.nodes.size → i < p'.nodes.size :=
    fun hi => hsize ▸ Nat.lt_succ_of_lt hi
  have hold : ∀ {i}, i < p.nodes.size → p'.node? i = p.node? i :=
    fun hi => node?_push_of_lt hnodes hi
  have hself : p'.node? p.nodes.size = some node := node?_push_self hnodes
  constructor
  case connected =>
    intro i c hc
    rw [hconnections] at hc
    obtain ⟨hid, hs, ht⟩ := h.connected i c hc
    exact ⟨hid, hlt hs, hlt ht⟩
  case rooted =>
    intro s hs
    rcases hadded s hs with hbefore | ⟨hroot, hkind⟩
    · obtain ⟨found, hfound, hkind⟩ := h.rooted s hbefore
      exact ⟨found, by rw [hold (h.root_lt hbefore)]; exact hfound, hkind⟩
    · exact ⟨node, by rw [hroot]; exact hself, hkind⟩
  case subscribed =>
    intro i found pool hfound hkind
    have hi := lt_size_of_node? hfound
    rcases Nat.lt_or_ge i p.nodes.size with hlt | hge
    · rw [hold hlt] at hfound
      obtain ⟨s, hs, hroot⟩ := h.subscribed i found pool hfound hkind
      exact ⟨s, hkept s hs, hroot⟩
    · obtain rfl : i = p.nodes.size := Nat.le_antisymm (Nat.le_of_lt_succ (hsize ▸ hi)) hge
      rw [hself] at hfound
      cases hfound
      exact haccess pool hkind
  case inhabited =>
    intro k hk
    rcases hcount k hk with hbefore | rfl
    · obtain ⟨i, hi⟩ := h.inhabited k hbefore
      exact ⟨i, by rw [pipeline?_of_node? (hold (lt_size_of_pipeline? hi))]; exact hi⟩
    · exact ⟨p.nodes.size, pipeline?_push_self hnodes⟩

/-- Adding a node that starts nothing. -/
theorem push_operator (h : p.Wired) (hnodes : p'.nodes = p.nodes.push node)
    (hconnections : p'.connections = p.connections)
    (hsubscriptions : p'.subscriptions = p.subscriptions)
    (hcount : p'.pipelineCount = p.pipelineCount) (hsource : node.kind.isSource = false) :
    p'.Wired := by
  refine h.push hnodes hconnections ?_ ?_ ?_ ?_
  · intro s hs
    rw [hsubscriptions]
    exact hs
  · intro s hs
    rw [hsubscriptions] at hs
    exact .inl hs
  · intro pool hkind
    rw [hkind] at hsource
    cases hsource
  · intro k hk
    rw [hcount] at hk
    exact .inl hk

/-- Adding a connection between nodes. -/
theorem connect (h : p.Wired) {source target : Nat} (hs : source < p.nodes.size)
    (ht : target < p.nodes.size) (kind : ConnectionKind) :
    (p.connect source target kind).Wired where
  connected i c hc := by
    have hpush : (p.connections.push ⟨p.connections.size, source, target, kind⟩)[i]? = some c := hc
    rw [Array.getElem?_push] at hpush
    split at hpush
    · next hi =>
      cases hpush
      exact ⟨hi.symm, hs, ht⟩
    · exact h.connected i c hpush
  rooted := h.rooted
  subscribed := h.subscribed
  inhabited := h.inhabited

end Program.Wired

-- ============================================================================
-- Segments
-- ============================================================================

namespace Builder

theorem wired_addBranch {b : Builder} {pipeline : OpenPipeline} (h : Sound (b, pipeline))
    (hw : b.program.Wired) {segment : Segment} (hsource : segment.kind.isSource = false)
    (line : Nat) : (b.addBranch pipeline segment line).1.program.Wired := by
  obtain ⟨anchors, hp, hends⟩ :
    ∃ anchors, Layout b.program anchors ∧ pipeline.Ends b.program anchors := h
  obtain ⟨a, ha⟩ : ∃ a : Nat, pipeline.anchor.getD pipeline.tail = a := ⟨_, rfl⟩
  have hanchor := (hends.between hp ha).1
  have htail := hends.tail
  let added := b.program.addNode segment line pipeline.id none
  have hsize : added.nodes.size = b.program.nodes.size + 1 := Array.size_push _
  have hadded : added.Wired := hw.push_operator rfl rfl rfl rfl hsource
  have hchained : (added.connect pipeline.tail b.program.nodes.size .pipe).Wired :=
    hadded.connect (by omega) (by omega) .pipe
  show (if _ then _ else _ : Program).Wired
  rw [ha]
  split
  · exact hchained
  · refine hchained.connect ?_ ?_ .pipe
    · exact Nat.lt_of_lt_of_eq (Nat.lt_succ_of_lt hanchor) hsize.symm
    · exact Nat.lt_of_lt_of_eq (Nat.lt_succ_self _) hsize.symm

theorem wired_addOperator {b : Builder} {pipeline : OpenPipeline} (h : Sound (b, pipeline))
    (hw : b.program.Wired) {segment : Segment} (hsource : segment.kind.isSource = false)
    (line : Nat) : (b.addOperator pipeline segment line).1.program.Wired := by
  obtain ⟨anchors, hp, hends⟩ :
    ∃ anchors, Layout b.program anchors ∧ pipeline.Ends b.program anchors := h
  have htail := hends.tail
  -- Whether or not the operator leaves the branches first, it is chained to the same end.
  have hchained : ∀ q : OpenPipeline, q.tail = pipeline.tail →
      ((b.program.addNode segment line q.id q.scope).connect q.tail
        b.program.nodes.size .pipe).Wired := by
    intro q hq
    have hadded : (b.program.addNode segment line q.id q.scope).Wired :=
      hw.push_operator rfl rfl rfl rfl hsource
    have hsize : (b.program.addNode segment line q.id q.scope).nodes.size =
        b.program.nodes.size + 1 := Array.size_push _
    refine hadded.connect ?_ ?_ .pipe
    · rw [hsize, hq]
      omega
    · rw [hsize]
      exact Nat.lt_succ_self _
  refine hchained _ ?_
  split <;> rfl

theorem wired_addSegment {state : Builder × OpenPipeline} (h : Sound state)
    (hw : state.1.program.Wired) (line : Nat) (source : List Char) :
    (addSegment line state source).1.program.Wired := by
  obtain ⟨b, pipeline⟩ := state
  unfold addSegment
  simp only
  split
  · exact hw.congr rfl rfl rfl rfl
  · next segment hread =>
    have hsource := Segment.isSource_of_readChars hread
    split
    · exact wired_addBranch h hw hsource line
    · exact wired_addOperator h hw hsource line

theorem wired_foldl {state : Builder × OpenPipeline} (h : Sound state)
    (hw : state.1.program.Wired) (line : Nat) (segments : List (List Char)) :
    (segments.foldl (addSegment line) state).1.program.Wired := by
  induction segments generalizing state with
  | nil => exact hw
  | cons source rest ih =>
    exact ih (sound_addSegment h line source) (wired_addSegment h hw line source)

-- ============================================================================
-- Lines
-- ============================================================================

theorem wired_extend {b : Builder} (h : b.LaidOut) (hw : b.program.Wired) (line : Nat)
    (segments : List (List Char)) : (b.extend line segments).program.Wired := by
  unfold extend
  match hcurrent : b.current with
  | none => exact hw.congr rfl rfl rfl rfl
  | some pipeline =>
    obtain ⟨anchors, hp, hends⟩ := h
    have hsound : Sound (b, pipeline) := ⟨anchors, hp, hends pipeline hcurrent⟩
    exact wired_foldl hsound hw line segments

/-- A pipeline that is counted when it starts has its first node. -/
theorem wired_startStream {b : Builder} (hw : b.program.Wired) (live : Bool)
    (literal text : String) (line : Nat) :
    (b.startStream live literal text line).program.Wired := by
  have hstart : ∀ segment : Segment, (∀ pool, segment.kind ≠ .poolAccess pool) →
      (b.start segment line).program.Wired := by
    intro segment hkind
    refine hw.push rfl rfl (fun s hs => hs) (fun s hs => .inl hs) ?_ ?_
    · exact fun pool hpool => absurd hpool (hkind pool)
    · exact fun k hk => Nat.lt_succ_iff_lt_or_eq.1 hk
  unfold startStream
  split
  · exact hstart _ fun pool h => by cases h
  · exact hstart _ fun pool h => by cases h

theorem wired_startSubscription {b : Builder} (hw : b.program.Wired) (pool text : String)
    (line : Nat) : (b.startSubscription pool text line).program.Wired := by
  refine hw.push rfl rfl ?_ ?_ ?_ ?_
  · exact fun s hs => List.mem_append_left _ hs
  · intro s hs
    rcases List.mem_append.1 hs with hbefore | hnew
    · exact .inl hbefore
    · obtain rfl := List.mem_singleton.1 hnew
      exact .inr ⟨rfl, rfl⟩
  · exact fun _ _ => ⟨_, List.mem_append_right _ List.mem_cons_self, rfl⟩
  · exact fun k hk => Nat.lt_succ_iff_lt_or_eq.1 hk

theorem wired_declare {b : Builder} (hw : b.program.Wired) (name initial : String) (line : Nat) :
    (b.declare name initial line).program.Wired := by
  unfold declare
  split
  · exact hw.congr rfl rfl rfl rfl
  · exact hw.congr rfl rfl rfl rfl

theorem wired_addStatement {b : Builder} (h : b.LaidOut) (hw : b.program.Wired) (line : Nat)
    (text : String) (statement : Statement) :
    (b.addStatement line text statement).program.Wired := by
  cases statement with
  | importLibrary library localName => exact hw.congr rfl rfl rfl rfl
  | function name => exact hw.congr rfl rfl rfl rfl
  | pool name initial => exact wired_declare (b := b.close) hw name initial line
  | stream live literal segments =>
    exact wired_extend (h.startStream live literal text line)
      (wired_startStream hw live literal text line) line segments
  | continuation segments => exact wired_extend h.leaveBranches hw line segments
  | branch segments => exact wired_extend h hw line segments
  | subscription pool segments =>
    exact wired_extend (h.startSubscription pool text line)
      (wired_startSubscription hw pool text line) line segments
  | malformed problem => exact hw.congr rfl rfl rfl rfl

theorem wired_addLine {b : Builder} (h : b.LaidOut) (hw : b.program.Wired) (line : Source.Line) :
    (b.addLine line).program.Wired := by
  unfold addLine
  simp only
  split
  · exact wired_addStatement h hw _ _ _
  · exact wired_addStatement (h.warn _ _) (hw.congr rfl rfl rfl rfl) _ _ _

theorem wired_foldl_addLine {b : Builder} (h : b.LaidOut) (hw : b.program.Wired)
    (lines : List Source.Line) : (lines.foldl addLine b).program.Wired := by
  induction lines generalizing b with
  | nil => exact hw
  | cons line rest ih => exact ih (h.addLine line) (wired_addLine h hw line)

-- ============================================================================
-- The end of building
-- ============================================================================

/-- Implied pools change nothing but pools and warnings. -/
theorem wired_implyPools {p : Program} (hw : p.Wired) (references : List (String × Nat)) :
    (implyPools p references).Wired := by
  induction references generalizing p with
  | nil => exact hw
  | cons reference rest ih =>
    unfold implyPools
    split
    · exact ih hw
    · exact ih (hw.congr rfl rfl rfl rfl)

/-- Connecting nodes, edge by edge. -/
theorem wired_feed {p : Program} (hw : p.Wired) (edges : List (Nat × Nat))
    (hedges : ∀ e ∈ edges, e.1 < p.nodes.size ∧ e.2 < p.nodes.size) :
    (edges.foldl (fun p (source, target) => p.connect source target .poolRead) p).Wired := by
  induction edges generalizing p with
  | nil => exact hw
  | cons edge rest ih =>
    obtain ⟨hs, ht⟩ := hedges edge List.mem_cons_self
    exact ih (hw.connect hs ht .poolRead) fun e he => hedges e (List.mem_cons_of_mem edge he)

/-- Connections are only added, and every edge becomes one. -/
theorem feed_connections (p : Program) (edges : List (Nat × Nat)) :
    let fed := edges.foldl (fun p (source, target) => p.connect source target .poolRead) p
    (∀ c ∈ p.connections, c ∈ fed.connections) ∧
      ∀ e ∈ edges, ∃ c ∈ fed.connections, c.source = e.1 ∧ c.target = e.2 := by
  induction edges generalizing p with
  | nil => exact ⟨fun c hc => hc, fun e he => by cases he⟩
  | cons edge rest ih =>
    obtain ⟨hkept, hmade⟩ := ih (p.connect edge.1 edge.2 .poolRead)
    refine ⟨fun c hc => hkept c (Array.mem_push_of_mem _ hc), fun e he => ?_⟩
    rcases List.mem_cons.1 he with rfl | hrest
    · exact ⟨_, hkept _ Array.mem_push_self, rfl, rfl⟩
    · exact hmade e hrest

theorem feed_subscriptions (p : Program) (edges : List (Nat × Nat)) :
    (edges.foldl (fun p (source, target) => p.connect source target .poolRead) p).subscriptions =
      p.subscriptions := by
  induction edges generalizing p with
  | nil => rfl
  | cons edge rest ih => exact ih (p.connect edge.1 edge.2 .poolRead)

/-- A pool write feeds the subscriptions on its pool. -/
theorem mem_feeds {p : Program} (hp : p.Indexed) {i : Nat} {node : Node} {pool : String}
    (hnode : p.node? i = some node) (hkind : node.kind = .poolWrite pool) {s : Subscription}
    (hs : s ∈ p.subscribersOf pool) : (i, s.root) ∈ feeds p := by
  have hmem : node ∈ p.nodes.toList := by
    unfold Program.node? at hnode
    exact Array.mem_toList_iff.2 (Array.mem_of_getElem? hnode)
  refine List.mem_flatMap.2 ⟨node, hmem, ?_⟩
  rw [hkind]
  refine List.mem_map.2 ⟨s, hs, ?_⟩
  rw [hp i node hnode]

/-- What is fed by a pool write starts a subscription. -/
theorem lt_size_of_mem_feeds {p : Program} (hp : p.Indexed) (hw : p.Wired) :
    ∀ e ∈ feeds p, e.1 < p.nodes.size ∧ e.2 < p.nodes.size := by
  intro e he
  obtain ⟨node, hmem, hedge⟩ := List.mem_flatMap.1 he
  obtain ⟨i, hi, hget⟩ := List.mem_iff_getElem.1 hmem
  have hnode : p.node? i = some node := by
    unfold Program.node?
    rw [← Array.getElem?_toList]
    exact List.getElem?_eq_some_iff.2 ⟨hi, hget⟩
  split at hedge
  · next pool hkind =>
    obtain ⟨s, hs, rfl⟩ := List.mem_map.1 hedge
    refine ⟨?_, hw.root_lt ((List.mem_filter.1 hs).1)⟩
    rw [hp i node hnode]
    exact Program.lt_size_of_node? hnode
  · cases hedge

end Builder

/-- Every source text builds a graph that is wired, in which every pool write leads to the
subscriptions on its pool. -/
theorem Program.parse_wired (source : String) :
    (parse source).Wired ∧
      ∀ i node pool s, (parse source).node? i = some node → node.kind = .poolWrite pool →
        s ∈ (parse source).subscribersOf pool → (parse source).Leads i s.root := by
  obtain ⟨b, warnings, hempty, hb, hparse⟩ := parse_eq source
  let built := (Source.scan source).lines.foldl Builder.addLine b
  let implied := Builder.implyPools built.program built.references
  have hbuilt : built.program.Wired := by
    refine Builder.wired_foldl_addLine hb ?_ _
    rw [hempty]
    exact Wired.empty.congr rfl rfl rfl rfl
  have himplied : implied.Wired := Builder.wired_implyPools hbuilt built.references
  have hindexed : implied.Indexed := by
    obtain ⟨anchors, hp, -⟩ := hb.foldl (Source.scan source).lines
    obtain ⟨hnodes, hpipes, hcount⟩ := Builder.implyPools_nodes built.program built.references
    exact (hp.congr hnodes hpipes hcount).indexed
  have hwired := Builder.wired_feed himplied (Builder.feeds implied)
    (Builder.lt_size_of_mem_feeds hindexed himplied)
  obtain ⟨hnodes, -, -⟩ := Builder.feed_nodes implied (Builder.feeds implied)
  have hsubscriptions := Builder.feed_subscriptions implied (Builder.feeds implied)
  obtain ⟨-, hmade⟩ := Builder.feed_connections implied (Builder.feeds implied)
  rw [hparse]
  refine ⟨hwired, fun i node pool s hnode hkind hs => ?_⟩
  have hnode' : implied.node? i = some node := by
    unfold node? at hnode ⊢
    rw [← hnodes]
    exact hnode
  have hs' : s ∈ implied.subscribersOf pool := by
    unfold subscribersOf at hs ⊢
    rw [← hsubscriptions]
    exact hs
  obtain ⟨c, hc, hsource, htarget⟩ := hmade _ (Builder.mem_feeds hindexed hnode' hkind hs')
  refine mem_allTargets.2 ⟨c, Array.mem_toList_iff.2 hc, hsource, htarget, ?_, ?_⟩
  · exact lt_size_of_node? hnode
  · exact hwired.root_lt ((List.mem_filter.1 hs).1)

end Sluice
