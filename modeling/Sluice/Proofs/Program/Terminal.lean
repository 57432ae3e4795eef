/-
  Sluice.Proofs.Program.Terminal

  Where the nodes of a graph come from. In a graph that source text builds every node is a segment
  that was read or the source of a pipeline, and its name says whether it ends the pipeline. A
  pool write is read from `to_pool` and nothing else, so it ends its pipeline: when its subscribers
  run, the pipeline that wrote has nothing left to do.
-/

import Sluice.Proofs.Program.Build

namespace Sluice

/-- A pool write is written as such. -/
theorem Segment.name_of_readCall {name source inside : List Char} {segment : Segment}
    {pool : String} (h : readCall name source inside = .ok segment)
    (hkind : segment.kind = .poolWrite pool) : segment.name = "to_pool" := by
  unfold readCall at h
  simp only at h
  split at h
  · next hname =>
    split at h
    · split at h
      · cases h
        show String.ofList name = "to_pool"
        rw [hname, String.ofList_toList]
      · cases h
    · cases h
  · cases h
    cases hkind

/-- Of all segments only the call of `to_pool` reads as a pool write. -/
theorem Segment.name_of_readChars {source : List Char} {segment : Segment} {pool : String}
    (h : readChars source = .ok segment) (hkind : segment.kind = .poolWrite pool) :
    segment.name = "to_pool" := by
  unfold readChars at h
  simp only at h
  split at h
  · cases h
  · split at h
    · cases h
      cases hkind
    · split at h
      · cases h
      · split at h
        · cases h
          cases hkind
        · split at h
          · split at h
            · cases h
            · split at h
              · cases h
              · cases h
                cases hkind
          · split at h
            · exact name_of_readCall h hkind
            · cases h

/-- Every pool write of a graph ends its pipeline. -/
def Program.WritesLast (p : Program) : Prop :=
  ∀ node ∈ p.nodes, ∀ pool, node.kind = .poolWrite pool → node.terminal = true

namespace Builder

/-- Pool writes come last if the one that is added does. -/
theorem writesLast_addNode {p : Program} (h : p.WritesLast) {segment : Segment}
    (hname : ∀ pool, segment.kind = .poolWrite pool → segment.name = "to_pool") (line : Nat)
    (pipeline : PipelineId) (scope : Option NodeId) :
    (p.addNode segment line pipeline scope).WritesLast := by
  intro node hnode pool hkind
  rcases Array.mem_push.1 hnode with hbefore | rfl
  · exact h node hbefore pool hkind
  · show isTerminalName segment.name = true
    rw [hname pool hkind]
    rfl

theorem writesLast_addSegment {state : Builder × OpenPipeline} (h : state.1.program.WritesLast)
    (line : Nat) (source : List Char) :
    (addSegment line state source).1.program.WritesLast := by
  obtain ⟨b, pipeline⟩ := state
  unfold addSegment
  simp only
  split
  · exact h
  · next segment hread =>
    have hadded := fun scope => writesLast_addNode h
      (fun pool hkind => Segment.name_of_readChars hread hkind) line pipeline.id scope
    split
    · show (if _ then _ else _ : Program).WritesLast
      split
      · exact hadded none
      · exact hadded none
    · unfold addOperator
      simp only
      split
      · exact hadded none
      · exact hadded pipeline.scope

theorem writesLast_extend {b : Builder} (h : b.program.WritesLast) (line : Nat)
    (segments : List (List Char)) : (b.extend line segments).program.WritesLast := by
  have hfold : ∀ state : Builder × OpenPipeline, state.1.program.WritesLast →
      (segments.foldl (addSegment line) state).1.program.WritesLast := by
    induction segments with
    | nil => exact fun _ hstate => hstate
    | cons source rest ih => exact fun _ hstate => ih _ (writesLast_addSegment hstate line source)
  unfold extend
  split
  · exact h
  · exact hfold _ h

theorem writesLast_start {b : Builder} (h : b.program.WritesLast) {segment : Segment}
    (hsource : segment.kind.isSource = true) (line : Nat) :
    (b.start segment line).program.WritesLast := by
  refine writesLast_addNode h (fun pool hkind => ?_) line _ none
  rw [hkind] at hsource
  cases hsource

theorem writesLast_addStatement {b : Builder} (h : b.program.WritesLast) (line : Nat)
    (text : String) (statement : Statement) :
    (b.addStatement line text statement).program.WritesLast := by
  cases statement with
  | importLibrary library localName => exact h
  | function name => exact h
  | pool name initial =>
    show Program.WritesLast (Builder.declare _ name initial line).program
    unfold declare
    split
    · exact h
    · exact h
  | stream live literal segments =>
    refine writesLast_extend ?_ line segments
    unfold startStream
    split
    · exact writesLast_start h rfl line
    · exact writesLast_start h rfl line
  | continuation segments =>
    exact writesLast_extend
      (b := { b with current := b.current.map OpenPipeline.leaveBranches }) h line segments
  | branch segments => exact writesLast_extend h line segments
  | subscription pool segments =>
    have hstart : (b.start ⟨.poolAccess pool, pool, [], text⟩ line).program.WritesLast :=
      writesLast_start h rfl line
    exact writesLast_extend (b := b.startSubscription pool text line) hstart line segments
  | malformed problem => exact h

theorem writesLast_addLine {b : Builder} (h : b.program.WritesLast) (line : Source.Line) :
    (b.addLine line).program.WritesLast := by
  unfold addLine
  simp only
  split
  · exact writesLast_addStatement h _ _ _
  · exact writesLast_addStatement (b := b.warn _ _) h _ _ _

end Builder

/-- In a graph that source text builds every pool write ends its pipeline. -/
theorem Program.parse_writesLast (source : String) : (parse source).WritesLast := by
  obtain ⟨b, warnings, hempty, -, hparse⟩ := parse_eq source
  have hlines : ∀ (lines : List Source.Line) (b : Builder), b.program.WritesLast →
      (lines.foldl Builder.addLine b).program.WritesLast := by
    intro lines
    induction lines with
    | nil => exact fun _ hb => hb
    | cons line rest ih => exact fun _ hb => ih _ (Builder.writesLast_addLine hb line)
  have hbuilt := hlines (Source.scan source).lines b (by
    rw [hempty]
    exact fun node hnode => absurd hnode (Array.not_mem_empty node))
  obtain ⟨hnodes, -, -⟩ :=
    Builder.finish_nodes ((Source.scan source).lines.foldl Builder.addLine b)
  rw [hparse]
  unfold WritesLast
  rw [hnodes]
  exact hbuilt

end Sluice
