/-
  Sluice.Proofs.Program.Build

  Building keeps the layout. Each of the three ways in which a node comes into a graph (the
  source of a pipeline, a branch, an operator) adds a node that fits, with the edges into it;
  everything else that a line does leaves nodes and pipes alone. The invariant says of the open
  pipeline where its end is, and of its scope that it reaches up to this end.
-/

import Sluice.Proofs.Program.Layout

namespace Sluice

-- ============================================================================
-- Graph operations
-- ============================================================================

/-- No call reads as a source. -/
theorem Segment.isSource_of_readCall {name source inside : List Char} {segment : Segment}
    (h : readCall name source inside = .ok segment) : segment.kind.isSource = false := by
  unfold readCall at h
  simp only at h
  split at h
  · split at h
    · split at h
      · cases h
        rfl
      · cases h
    · cases h
  · cases h
    rfl

/-- No segment reads as a source. -/
theorem Segment.isSource_of_readChars {source : List Char} {segment : Segment}
    (h : readChars source = .ok segment) : segment.kind.isSource = false := by
  unfold readChars at h
  simp only at h
  split at h
  · cases h
  · split at h
    · cases h
      rfl
    · split at h
      · cases h
      · split at h
        · cases h
          rfl
        · split at h
          · split at h
            · cases h
            · split at h
              · cases h
              · cases h
                rfl
          · split at h
            · exact isSource_of_readCall h
            · cases h

namespace Program

variable (p : Program)

/-- A connection within a pipeline is one pipe more, any other is none. -/
theorem pipes_connect (source target : Nat) (kind : ConnectionKind) :
    (p.connect source target kind).pipes =
      p.pipes ++ if kind = .pipe then [(source, target)] else [] := by
  unfold pipes connect
  rw [Array.toList_push, List.filterMap_append]
  congr 1
  by_cases hk : kind = .pipe <;> simp [hk]

end Program

-- ============================================================================
-- The open pipeline
-- ============================================================================

/-- An open pipeline stands at the end of the graph, and its scope reaches up to this end. -/
structure OpenPipeline.Ends (pipeline : OpenPipeline) (p : Program) (anchors : Nat → Nat) :
    Prop where
  tail : p.nodes.size = pipeline.tail.succ
  id : p.pipeline? pipeline.tail = some pipeline.id
  outside : pipeline.scope = none → pipeline.anchor = none ∧ pipeline.closesAtTerminal = false
  inside : ∀ t, pipeline.scope = some t → p.isBranch t ∧ pipeline.anchor = some (anchors t) ∧
    pipeline.closesAtTerminal = decide (anchors t + 1 ≠ t) ∧
    ∀ k, t < k → k < p.nodes.size → p.scope? k = some t

namespace OpenPipeline.Ends

variable {p : Program} {anchors : Nat → Nat} {pipeline : OpenPipeline}

/-- Where a pipeline ends is a matter of the nodes. -/
theorem congr {p' : Program} (h : pipeline.Ends p anchors) (hnodes : p'.nodes = p.nodes) :
    pipeline.Ends p' anchors := by
  obtain ⟨nodes, connections, pools, subscriptions, imports, stubs, warnings, count⟩ := p'
  obtain rfl : nodes = p.nodes := hnodes
  exact ⟨h.tail, h.id, h.outside, h.inside⟩

theorem leaveBranches (h : pipeline.Ends p anchors) : pipeline.leaveBranches.Ends p anchors where
  tail := h.tail
  id := h.id
  outside _ := ⟨rfl, rfl⟩
  inside _ ht := by cases ht

/-- From the anchor of a pipeline to its end there is nothing but the current group. -/
theorem between (h : pipeline.Ends p anchors) (hp : Layout p anchors) {a : Nat}
    (ha : pipeline.anchor.getD pipeline.tail = a) :
    a < p.nodes.size ∧ ∀ j, a < j → j < p.nodes.size → p.Member anchors a j := by
  have htail := h.tail
  match hscope : pipeline.scope with
  | none =>
    rw [(h.outside hscope).1, Option.getD_none] at ha
    subst ha
    exact ⟨by omega, fun j hj hjs => by omega⟩
  | some t =>
    obtain ⟨hbranch, hanchor, -, hblock⟩ := h.inside t hscope
    obtain ⟨hlt, hgroup⟩ := hp.anchored t hbranch
    have hts := Program.lt_size_of_isBranch hbranch
    rw [hanchor, Option.getD_some] at ha
    subst ha
    refine ⟨Nat.lt_trans hlt hts, fun j hj hjs => ?_⟩
    rcases Nat.lt_trichotomy j t with hjt | rfl | htj
    · exact hgroup j hj hjt
    · exact .inl ⟨hbranch, rfl⟩
    · exact .inr ⟨t, hblock j htj hjs, hbranch, rfl⟩

end OpenPipeline.Ends

-- ============================================================================
-- Nodes
-- ============================================================================

namespace Builder

/-- The anchors of a graph in which the next branch hangs off `a`. -/
def anchorsWith (p : Program) (anchors : Nat → Nat) (a : Nat) : Nat → Nat :=
  fun t => if t = p.nodes.size then a else anchors t

/-- A graph under construction with the pipeline that is being extended. -/
def Sound (state : Builder × OpenPipeline) : Prop :=
  ∃ anchors, Layout state.1.program anchors ∧ state.2.Ends state.1.program anchors

theorem sound_addBranch {b : Builder} {pipeline : OpenPipeline} (h : Sound (b, pipeline))
    {segment : Segment} (hsegment : segment.kind.expects?.isSome = true)
    (hsource : segment.kind.isSource = false) (line : Nat) :
    Sound (b.addBranch pipeline segment line) := by
  obtain ⟨anchors, hp, hends⟩ :
    ∃ anchors, Layout b.program anchors ∧ pipeline.Ends b.program anchors := h
  obtain ⟨a, ha⟩ : ∃ a : Nat, pipeline.anchor.getD pipeline.tail = a := ⟨_, rfl⟩
  obtain ⟨hlt, hbetween⟩ := hends.between hp ha
  have htail := hends.tail
  let node : Node :=
    { segment with
      id := b.program.nodes.size, line, terminal := isTerminalName segment.name,
      pipeline := pipeline.id, scope := none }
  let p' := (b.addBranch pipeline segment line).1.program
  let anchors' := anchorsWith b.program anchors a
  have hself : anchors' b.program.nodes.size = a := if_pos rfl
  have hnodes : p'.nodes = b.program.nodes.push node := by
    show (if _ then _ else _ : Program).nodes = _
    split <;> rfl
  have hcount : p'.pipelineCount = b.program.pipelineCount := by
    show (if _ then _ else _ : Program).pipelineCount = _
    split <;> rfl
  have hfits : Layout.Fits b.program anchors node (anchors' b.program.nodes.size) := by
    rw [hself]
    exact
      { id := rfl
        first := fun _ => by omega
        branch := fun _ => ⟨rfl, hlt, hbetween⟩
        scope := fun t ht => by cases ht
        continued := fun _ => by rw [htail]; exact hends.id
        started := fun h => absurd (hsource.symm.trans h) (by decide) }
  have hcontinues : p'.continues b.program.nodes.size = true := by
    rw [Program.continues_push_self hnodes]
    show (!segment.kind.isSource) = true
    rw [hsource]
    rfl
  have hbranch : p'.isBranch b.program.nodes.size = true := by
    rw [Program.isBranch_push_self hnodes]
    exact hsegment
  have hpipes : p'.pipes = b.program.pipes ++ p'.incoming anchors' b.program.nodes.size := by
    unfold Program.incoming
    rw [if_pos hcontinues, hself]
    show (if _ then _ else _ : Program).pipes = _
    rw [ha]
    by_cases hanchor : a = pipeline.tail
    · rw [if_pos hanchor, if_neg (by omega), Program.pipes_connect, if_pos rfl, htail]
      rfl
    · rw [if_neg hanchor, if_pos ⟨hbranch, by omega⟩, Program.pipes_connect, if_pos rfl,
        Program.pipes_connect, if_pos rfl, List.append_assoc, htail]
      rfl
  refine ⟨anchors', hp.push hnodes (fun t ht => if_neg (Nat.ne_of_lt ht)) hfits hpipes
    (Nat.le_of_eq hcount.symm) ?_, ?_⟩
  · rw [hcount]
    exact hp.counted _ _ hends.id
  · constructor
    case tail =>
      show p'.nodes.size = _
      rw [hnodes, Array.size_push]
      rfl
    case id => exact Program.pipeline?_push_self hnodes
    case outside =>
      intro h
      cases h
    case inside =>
      rintro t ⟨⟩
      refine ⟨hbranch, ?_, ?_, fun k hk hks => ?_⟩
      · rw [hself, ← ha]
        rfl
      · rw [hself]
        show decide (pipeline.anchor.getD pipeline.tail ≠ pipeline.tail) = _
        rw [ha]
        refine decide_eq_decide.2 (not_congr ⟨fun h => ?_, fun h => ?_⟩)
        · rw [h, htail]
        · exact Nat.succ.inj (h.trans htail)
      · have hlast : k < b.program.nodes.size + 1 := by
          rw [← Array.size_push, ← hnodes]
          exact hks
        exact absurd hk (Nat.not_lt.2 (Nat.le_of_lt_succ hlast))

theorem sound_addOperator {b : Builder} {pipeline : OpenPipeline} (h : Sound (b, pipeline))
    {segment : Segment} (hsegment : segment.kind.expects?.isSome = false)
    (hsource : segment.kind.isSource = false) (line : Nat) :
    Sound (b.addOperator pipeline segment line) := by
  obtain ⟨anchors, hp, hends⟩ :
    ∃ anchors, Layout b.program anchors ∧ pipeline.Ends b.program anchors := h
  -- Whether or not the operator leaves the branches first, it is chained to the same end.
  obtain ⟨q, hq⟩ : ∃ q, (if isTerminalName segment.name && pipeline.closesAtTerminal then
      pipeline.leaveBranches else pipeline) = q := ⟨_, rfl⟩
  have hends : q.Ends b.program anchors := by
    subst hq
    split
    · exact hends.leaveBranches
    · exact hends
  have htail := hends.tail
  let node : Node :=
    { segment with
      id := b.program.nodes.size, line, terminal := isTerminalName segment.name,
      pipeline := q.id, scope := q.scope }
  let p' := (b.program.addNode segment line q.id q.scope).connect q.tail b.program.nodes.size .pipe
  have hnodes : p'.nodes = b.program.nodes.push node := rfl
  have hfits : Layout.Fits b.program anchors node (anchors b.program.nodes.size) :=
    { id := rfl
      first := fun _ => by omega
      branch := fun h => absurd (hsegment.symm.trans h) (by decide)
      scope := fun t ht => ⟨hsource, (hends.inside t ht).1, (hends.inside t ht).2.2.2⟩
      continued := fun _ => by rw [htail]; exact hends.id
      started := fun h => absurd (hsource.symm.trans h) (by decide) }
  have hbranch : p'.isBranch b.program.nodes.size = false := by
    rw [Program.isBranch_push_self hnodes]
    exact hsegment
  have hpipes : p'.pipes = b.program.pipes ++ p'.incoming anchors b.program.nodes.size := by
    unfold Program.incoming
    rw [Program.continues_push_self hnodes, hbranch]
    have hcontinues : (!node.kind.isSource) = true := by
      show (!segment.kind.isSource) = true
      rw [hsource]
      rfl
    rw [if_pos hcontinues, if_neg (by simp), Program.pipes_connect, if_pos rfl, htail]
    rfl
  have hlayout : Layout p' anchors := hp.push hnodes (fun _ _ => rfl) hfits hpipes (Nat.le_refl _)
    (hp.counted _ _ hends.id)
  have hmade : Sound ({ b with program := p' }, { q with tail := b.program.nodes.size }) := by
    refine ⟨anchors, hlayout, ?_⟩
    constructor
    case tail => exact Array.size_push _
    case id => exact Program.pipeline?_push_self hnodes
    case outside => exact hends.outside
    case inside =>
      intro t ht
      obtain ⟨hb, hanchor, hcloses, hblock⟩ := hends.inside t ht
      have hold : ∀ k < b.program.nodes.size, p'.node? k = b.program.node? k :=
        fun k hk => Program.node?_push_of_lt hnodes hk
      refine ⟨?_, hanchor, hcloses, fun k hk hks => ?_⟩
      · rw [Program.isBranch_of_node? (hold t (Program.lt_size_of_isBranch hb))]
        exact hb
      · have hlast := Nat.lt_of_lt_of_eq hks (Array.size_push _)
        rcases Nat.lt_succ_iff_lt_or_eq.1 hlast with hk' | rfl
        · rw [Program.scope?_of_node? (hold k hk')]
          exact hblock k hk hk'
        · rw [Program.scope?_push_self hnodes]
          exact ht
  subst hq
  exact hmade

theorem sound_addSegment {state : Builder × OpenPipeline} (h : Sound state) (line : Nat)
    (source : List Char) : Sound (addSegment line state source) := by
  obtain ⟨b, pipeline⟩ := state
  unfold addSegment
  simp only
  split
  · obtain ⟨anchors, hp, hends⟩ := h
    exact ⟨anchors, hp.congr rfl rfl rfl, hends.congr rfl⟩
  · next segment hread =>
    have hsource := Segment.isSource_of_readChars hread
    split
    · next hbranch => exact sound_addBranch h hbranch hsource line
    · next hoperator => exact sound_addOperator h (Bool.eq_false_iff.2 hoperator) hsource line

theorem sound_foldl {state : Builder × OpenPipeline} (h : Sound state) (line : Nat)
    (segments : List (List Char)) : Sound (segments.foldl (addSegment line) state) := by
  induction segments generalizing state with
  | nil => exact h
  | cons source rest ih => exact ih (sound_addSegment h line source)

-- ============================================================================
-- Lines
-- ============================================================================

/-- A builder whose graph is laid out, with its open pipeline, if any, at the end. -/
def LaidOut (b : Builder) : Prop :=
  ∃ anchors, Layout b.program anchors ∧
    ∀ pipeline, b.current = some pipeline → pipeline.Ends b.program anchors

/-- Whatever leaves nodes and pipes alone keeps the layout, if it opens no pipeline. -/
theorem LaidOut.congr {b b' : Builder} (h : b.LaidOut) (hnodes : b'.program.nodes = b.program.nodes)
    (hpipes : b'.program.pipes = b.program.pipes)
    (hcount : b'.program.pipelineCount = b.program.pipelineCount)
    (hcurrent : ∀ pipeline, b'.current = some pipeline → b.current = some pipeline) :
    b'.LaidOut := by
  obtain ⟨anchors, hp, hends⟩ := h
  refine ⟨anchors, hp.congr hnodes hpipes hcount, fun pipeline hpipeline => ?_⟩
  exact (hends pipeline (hcurrent pipeline hpipeline)).congr hnodes

theorem LaidOut.warn {b : Builder} (h : b.LaidOut) (line : Nat) (problem : Problem) :
    (b.warn line problem).LaidOut :=
  h.congr rfl rfl rfl fun _ hpipeline => hpipeline

theorem LaidOut.close {b : Builder} (h : b.LaidOut) : b.close.LaidOut :=
  h.congr rfl rfl rfl fun _ hpipeline => by cases hpipeline

theorem LaidOut.declare {b : Builder} (h : b.LaidOut) (name initial : String) (line : Nat) :
    (b.declare name initial line).LaidOut := by
  unfold Builder.declare
  split
  · exact h.congr rfl rfl rfl fun _ hpipeline => hpipeline
  · exact h.congr rfl rfl rfl fun _ hpipeline => hpipeline

theorem LaidOut.extend {b : Builder} (h : b.LaidOut) (line : Nat) (segments : List (List Char)) :
    (b.extend line segments).LaidOut := by
  unfold Builder.extend
  match hcurrent : b.current with
  | none => exact h.warn line _
  | some pipeline =>
    obtain ⟨anchors, hp, hends⟩ := h
    have hsound : Sound (b, pipeline) := ⟨anchors, hp, hends pipeline hcurrent⟩
    obtain ⟨anchors', hp', hends'⟩ := sound_foldl hsound line segments
    refine ⟨anchors', hp', fun q hq => ?_⟩
    cases hq
    exact hends'

/-- A pipeline starts behind all others. -/
theorem LaidOut.start {b : Builder} (h : b.LaidOut) {segment : Segment}
    (hsource : segment.kind.isSource = true) (line : Nat) : (b.start segment line).LaidOut := by
  obtain ⟨anchors, hp, -⟩ := h
  let node : Node :=
    { segment with
      id := b.program.nodes.size, line, terminal := isTerminalName segment.name,
      pipeline := b.program.pipelineCount, scope := none }
  let p' := (b.start segment line).program
  have hnodes : p'.nodes = b.program.nodes.push node := rfl
  have hnobranch : segment.kind.expects?.isSome = false := by
    match hk : segment.kind with
    | .finiteSource _ | .liveSource _ | .poolAccess _ | .operator | .lens _ _ | .poolWrite _ => rfl
    | .branch _ =>
      rw [hk] at hsource
      cases hsource
  have hfits : Layout.Fits b.program anchors node (anchors b.program.nodes.size) :=
    { id := rfl
      first := fun h => absurd (hsource.symm.trans h) (by decide)
      branch := fun h => absurd (hnobranch.symm.trans h) (by decide)
      scope := fun t ht => by cases ht
      continued := fun h => absurd (hsource.symm.trans h) (by decide)
      started := fun _ t l hl => hp.counted t l hl }
  have hpipes : p'.pipes = b.program.pipes ++ p'.incoming anchors b.program.nodes.size := by
    unfold Program.incoming
    rw [Program.continues_push_self hnodes]
    have hstarts : ¬(!node.kind.isSource) = true := by
      show ¬(!segment.kind.isSource) = true
      rw [hsource]
      decide
    rw [if_neg hstarts, List.append_nil]
    rfl
  refine ⟨anchors, hp.push hnodes (fun _ _ => rfl) hfits hpipes (Nat.le_succ _)
    (Nat.lt_succ_self _), fun pipeline hpipeline => ?_⟩
  cases hpipeline
  exact
    { tail := Array.size_push _
      id := Program.pipeline?_push_self hnodes
      outside := fun _ => ⟨rfl, rfl⟩
      inside := fun t ht => by cases ht }

theorem LaidOut.startStream {b : Builder} (h : b.LaidOut) (live : Bool) (literal text : String)
    (line : Nat) : (b.startStream live literal text line).LaidOut := by
  unfold Builder.startStream
  split
  · exact h.start rfl line
  · exact h.start rfl line

theorem LaidOut.startSubscription {b : Builder} (h : b.LaidOut) (pool text : String) (line : Nat) :
    (b.startSubscription pool text line).LaidOut := by
  have hroot : (b.start ⟨.poolAccess pool, pool, [], text⟩ line).LaidOut := h.start rfl line
  exact hroot.congr rfl rfl rfl fun _ hp => hp

theorem LaidOut.leaveBranches {b : Builder} (h : b.LaidOut) :
    Builder.LaidOut { b with current := b.current.map OpenPipeline.leaveBranches } := by
  obtain ⟨anchors, hp, hends⟩ := h
  refine ⟨anchors, hp, fun pipeline hpipeline => ?_⟩
  obtain ⟨q, hq, rfl⟩ := Option.map_eq_some_iff.1 hpipeline
  exact (hends q hq).leaveBranches

theorem LaidOut.addStatement {b : Builder} (h : b.LaidOut) (line : Nat) (text : String)
    (statement : Statement) : (b.addStatement line text statement).LaidOut := by
  cases statement with
  | importLibrary library localName => exact h.close.congr rfl rfl rfl fun _ hp => hp
  | function name =>
    exact (h.close.warn line (.unsupportedFunction name)).congr rfl rfl rfl fun _ hp => hp
  | pool name initial => exact h.close.declare name initial line
  | stream live literal segments =>
    exact (h.startStream live literal text line).extend line segments
  | continuation segments => exact h.leaveBranches.extend line segments
  | branch segments => exact h.extend line segments
  | subscription pool segments => exact (h.startSubscription pool text line).extend line segments
  | malformed problem => exact h.close.warn line problem

theorem LaidOut.addLine {b : Builder} (h : b.LaidOut) (line : Source.Line) :
    (b.addLine line).LaidOut := by
  unfold Builder.addLine
  simp only
  split
  · exact h.addStatement _ _ _
  · exact (h.warn _ _).addStatement _ _ _

theorem LaidOut.foldl {b : Builder} (h : b.LaidOut) (lines : List Source.Line) :
    (lines.foldl Builder.addLine b).LaidOut := by
  induction lines generalizing b with
  | nil => exact h
  | cons line rest ih => exact ih (h.addLine line)

theorem implyPools_nodes (p : Program) (references : List (String × Nat)) :
    (implyPools p references).nodes = p.nodes ∧ (implyPools p references).pipes = p.pipes ∧
      (implyPools p references).pipelineCount = p.pipelineCount := by
  induction references generalizing p with
  | nil => exact ⟨rfl, rfl, rfl⟩
  | cons reference rest ih =>
    unfold implyPools
    split
    · exact ih p
    · exact ih _

/-- The connections from pool writes to subscriptions are no pipes. -/
theorem feed_nodes (p : Program) (edges : List (Nat × Nat)) :
    let fed := edges.foldl (fun p (source, target) => p.connect source target .poolRead) p
    fed.nodes = p.nodes ∧ fed.pipes = p.pipes ∧ fed.pipelineCount = p.pipelineCount := by
  induction edges generalizing p with
  | nil => exact ⟨rfl, rfl, rfl⟩
  | cons edge rest ih =>
    obtain ⟨hnodes, hpipes, hcount⟩ := ih (p.connect edge.1 edge.2 .poolRead)
    refine ⟨hnodes, hpipes.trans ?_, hcount⟩
    rw [Program.pipes_connect, if_neg (by decide), List.append_nil]

/-- Finishing leaves nodes and pipes alone. -/
theorem finish_nodes (b : Builder) :
    b.finish.nodes = b.program.nodes ∧ b.finish.pipes = b.program.pipes ∧
      b.finish.pipelineCount = b.program.pipelineCount := by
  obtain ⟨hnodes, hpipes, hcount⟩ := implyPools_nodes b.program b.references
  obtain ⟨hnodes', hpipes', hcount'⟩ :=
    feed_nodes (implyPools b.program b.references) (feeds (implyPools b.program b.references))
  exact ⟨hnodes'.trans hnodes, hpipes'.trans hpipes, hcount'.trans hcount⟩

end Builder

/-- A program is built line by line from a builder that holds nothing but warnings. -/
theorem Program.parse_eq (source : String) :
    ∃ (b : Builder) (warnings : List Warning), b.program = { warnings } ∧ b.LaidOut ∧
      parse source = ((Source.scan source).lines.foldl Builder.addLine b).finish := by
  have hstart : Builder.LaidOut {} := ⟨id, .empty id, fun _ h => by cases h⟩
  unfold parse
  simp only
  split
  · exact ⟨_, _, rfl, hstart.warn _ _, rfl⟩
  · exact ⟨_, [], rfl, hstart, rfl⟩

/-- Every source text builds a graph that is laid out. -/
theorem Program.parse_layout (source : String) : ∃ anchors, Layout (parse source) anchors := by
  obtain ⟨b, -, -, hb, hparse⟩ := parse_eq source
  obtain ⟨anchors, hp, -⟩ := hb.foldl (Source.scan source).lines
  obtain ⟨hnodes, hpipes, hcount⟩ :=
    Builder.finish_nodes ((Source.scan source).lines.foldl Builder.addLine b)
  rw [hparse]
  exact ⟨anchors, hp.congr hnodes hpipes hcount⟩

end Sluice
