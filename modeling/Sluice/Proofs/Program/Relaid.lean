/-
  Sluice.Proofs.Program.Relaid

  The same graph from lines that are laid out in another way. Where a line stands matters only to
  the line numbers that nodes, declarations and warnings carry, and nothing that is built later
  looks at those. So two builders that agree up to line numbers still do after any further line
  that both of them read, wherever each of them finds it.

  A source node also carries the whole line that it was read from. On one line, given by its
  number, the two may have found different texts, and the root that is built there may differ
  in this.
-/

import Mathlib.Data.List.Forall2
import Sluice.Program.Build
import Sluice.Proofs.Record

namespace Sluice

-- ============================================================================
-- Graphs up to line numbers
-- ============================================================================

/-- A node on another line. The root of the pipeline that starts on line `number` may have been
read off another text. -/
structure Node.Relaid (number : Nat) (node node' : Node) : Prop where
  same : { node' with line := node.line, raw := node.raw } = node
  raw : node'.raw = node.raw ∨ node.kind.isSource = true ∧ node.line = number

/-- A declaration without its line. -/
def PoolDeclaration.unplaced (pool : PoolDeclaration) : PoolDeclaration :=
  { pool with line := 0 }

/-- A subscription without its line. -/
def Subscription.unplaced (s : Subscription) : Subscription :=
  { s with line := 0 }

/-- An import without its line. -/
def Import.unplaced (i : Import) : Import :=
  { i with line := 0 }

/-- A function without its line. -/
def FunctionStub.unplaced (stub : FunctionStub) : FunctionStub :=
  { stub with line := 0 }

/-- The same graph, but for line numbers and the text of the root that is built on line
`number`. -/
structure Program.Relaid (number : Nat) (p p' : Program) : Prop where
  nodes : List.Forall₂ (Node.Relaid number) p.nodes.toList p'.nodes.toList
  connections : p'.connections = p.connections
  pools : p'.pools.mapContents PoolDeclaration.unplaced =
    p.pools.mapContents PoolDeclaration.unplaced
  subscriptions : p'.subscriptions.map Subscription.unplaced =
    p.subscriptions.map Subscription.unplaced
  imports : p'.imports.map Import.unplaced = p.imports.map Import.unplaced
  stubs : p'.stubs.map FunctionStub.unplaced = p.stubs.map FunctionStub.unplaced
  warnings : p'.warnings.map Warning.problem = p.warnings.map Warning.problem
  pipelines : p'.pipelineCount = p.pipelineCount

namespace Node.Relaid

variable {number : Nat} {node node' : Node}

theorem refl (number : Nat) (node : Node) : node.Relaid number node :=
  ⟨rfl, .inl rfl⟩

theorem id (h : node.Relaid number node') : node'.id = node.id := by
  rw [← h.same]

theorem kind (h : node.Relaid number node') : node'.kind = node.kind := by
  rw [← h.same]

end Node.Relaid

namespace Program.Relaid

variable {number : Nat} {p p' : Program}

theorem refl (number : Nat) (p : Program) : p.Relaid number p where
  nodes := List.forall₂_same.2 fun node _ => .refl number node
  connections := rfl
  pools := rfl
  subscriptions := rfl
  imports := rfl
  stubs := rfl
  warnings := rfl
  pipelines := rfl

theorem size_nodes (h : p.Relaid number p') : p'.nodes.size = p.nodes.size :=
  h.nodes.length_eq.symm

theorem warn (h : p.Relaid number p') (line line' : Nat) (problem : Problem) :
    (p.warn line problem).Relaid number (p'.warn line' problem) :=
  { h with
    warnings := by
      simp only [Program.warn, List.map_append, List.map_singleton]
      rw [h.warnings] }

theorem connect (h : p.Relaid number p') (source target : NodeId) (kind : ConnectionKind) :
    (p.connect source target kind).Relaid number (p'.connect source target kind) :=
  { h with
    connections := by
      simp only [Program.connect]
      rw [h.connections] }

/-- A node is added to both; a root that is added on line `number` may have another text. -/
theorem addNode (h : p.Relaid number p') {segment segment' : Segment} {line : Nat}
    (hsame : { segment' with raw := segment.raw } = segment)
    (hraw : segment'.raw = segment.raw ∨ segment.kind.isSource = true ∧ line = number)
    (line' : Nat) (pipeline : PipelineId) (scope : Option NodeId) :
    (p.addNode segment line pipeline scope).Relaid number
      (p'.addNode segment' line' pipeline scope) := by
  obtain ⟨kind, name, arguments, raw⟩ := segment
  obtain ⟨kind', name', arguments', raw'⟩ := segment'
  cases hsame
  refine { h with nodes := ?_ }
  simp only [Program.addNode, Array.toList_push]
  refine List.rel_append h.nodes (.cons ⟨?_, hraw⟩ .nil)
  simp only [h.size_nodes]

theorem contains_pools (h : p.Relaid number p') (pool : String) :
    p'.pools.contains pool = p.pools.contains pool := by
  have hget := congrArg (fun pools => (Record.get? pool pools).isSome) h.pools
  simp only [Record.get?_mapContents, Option.isSome_map] at hget
  exact hget

theorem declare (h : p.Relaid number p') {pool pool' : PoolDeclaration}
    (hsame : pool'.unplaced = pool.unplaced) : (p.declare pool).Relaid number (p'.declare pool') :=
  { h with
    pools := by
      have hname := congrArg (fun d : PoolDeclaration => d.name) hsame
      simp only [PoolDeclaration.unplaced] at hname
      simp only [Program.declare, Record.mapContents_set]
      rw [h.pools, hsame, hname] }

end Program.Relaid

-- ============================================================================
-- Segments
-- ============================================================================

namespace Builder

/-- Two builders that have read the same, but for where it stood. -/
structure Relaid (number : Nat) (b b' : Builder) : Prop where
  program : b.program.Relaid number b'.program
  current : b'.current = b.current
  references : b'.references.map Prod.fst = b.references.map Prod.fst

/-- Two such builders at work on the same pipeline, whatever pipeline was open before. -/
structure Chained (number : Nat) (state state' : Builder × OpenPipeline) : Prop where
  program : state.1.program.Relaid number state'.1.program
  pipeline : state'.2 = state.2
  references : state'.1.references.map Prod.fst = state.1.references.map Prod.fst

variable {number : Nat} {b b' : Builder}

theorem Relaid.refl (number : Nat) (b : Builder) : b.Relaid number b :=
  ⟨.refl number b.program, rfl, rfl⟩

theorem Relaid.warn (h : b.Relaid number b') (line line' : Nat) (problem : Problem) :
    (b.warn line problem).Relaid number (b'.warn line' problem) :=
  ⟨h.program.warn line line' problem, h.current, h.references⟩

theorem Relaid.close (h : b.Relaid number b') : b.close.Relaid number b'.close :=
  ⟨h.program, rfl, h.references⟩

theorem Relaid.chained (h : b.Relaid number b') (pipeline : OpenPipeline) :
    Chained number (b, pipeline) (b', pipeline) :=
  ⟨h.program, rfl, h.references⟩

variable {pipeline : OpenPipeline}

theorem Chained.addBranch (h : Chained number (b, pipeline) (b', pipeline)) (segment : Segment)
    (line line' : Nat) :
    Chained number (b.addBranch pipeline segment line) (b'.addBranch pipeline segment line') := by
  have hsame : { segment with raw := segment.raw } = segment := rfl
  have hadded : (b.program.addNode segment line pipeline.id none).Relaid number
      (b'.program.addNode segment line' pipeline.id none) :=
    h.program.addNode hsame (.inl rfl) line' pipeline.id none
  have hchained := hadded.connect pipeline.tail b.program.nodes.size .pipe
  simp only [Builder.addBranch, h.program.size_nodes]
  refine ⟨?_, rfl, h.references⟩
  split
  · exact hchained
  · exact hchained.connect _ _ .pipe

theorem Chained.addOperator (h : Chained number (b, pipeline) (b', pipeline)) (segment : Segment)
    (line line' : Nat) :
    Chained number (b.addOperator pipeline segment line)
      (b'.addOperator pipeline segment line') := by
  have hsame : { segment with raw := segment.raw } = segment := rfl
  simp only [Builder.addOperator, h.program.size_nodes]
  refine ⟨(h.program.addNode hsame (.inl rfl) line' _ _).connect _ _ .pipe, rfl, ?_⟩
  dsimp only
  split
  · rw [List.map_append, List.map_append, h.references]
    rfl
  · exact h.references

theorem Chained.addSegment {state state' : Builder × OpenPipeline}
    (h : Chained number state state') (line line' : Nat) (source : List Char) :
    Chained number (Builder.addSegment line state source)
      (Builder.addSegment line' state' source) := by
  obtain ⟨b, pipeline⟩ := state
  obtain ⟨b', pipeline'⟩ := state'
  obtain rfl : pipeline' = pipeline := h.pipeline
  simp only [Builder.addSegment]
  split
  · exact ⟨h.program.warn line line' _, rfl, h.references⟩
  · split
    · exact h.addBranch _ line line'
    · exact h.addOperator _ line line'

theorem Chained.foldl {state state' : Builder × OpenPipeline} (h : Chained number state state')
    (line line' : Nat) (segments : List (List Char)) :
    Chained number (segments.foldl (Builder.addSegment line) state)
      (segments.foldl (Builder.addSegment line') state') := by
  induction segments generalizing state state' with
  | nil => exact h
  | cons source rest ih => exact ih (h.addSegment line line' source)

-- ============================================================================
-- Lines
-- ============================================================================

theorem Relaid.extend (h : b.Relaid number b') (line line' : Nat) (segments : List (List Char)) :
    (b.extend line segments).Relaid number (b'.extend line' segments) := by
  unfold Builder.extend
  rw [h.current]
  cases b.current with
  | none => exact h.warn line line' _
  | some pipeline =>
    have hfolded := (h.chained pipeline).foldl line line' segments
    exact ⟨hfolded.program, congrArg some hfolded.pipeline, hfolded.references⟩

/-- A pipeline is started in both. On line `number` its root may have another text. -/
theorem Relaid.start (h : b.Relaid number b') {segment segment' : Segment} {line : Nat}
    (hsame : { segment' with raw := segment.raw } = segment)
    (hraw : segment'.raw = segment.raw ∨ segment.kind.isSource = true ∧ line = number)
    (line' : Nat) : (b.start segment line).Relaid number (b'.start segment' line') := by
  have hadded := h.program.addNode hsame hraw line' b.program.pipelineCount none
  simp only [Builder.start, h.program.pipelines, h.program.size_nodes]
  exact ⟨{ hadded with pipelines := rfl }, rfl, h.references⟩

variable {line : Nat} {text text' : String} (htext : text' = text ∨ line = number)
include htext

theorem Relaid.startStream (h : b.Relaid number b') (live : Bool) (literal : String)
    (line' : Nat) :
    (b.startStream live literal text line).Relaid number
      (b'.startStream live literal text' line') := by
  unfold Builder.startStream
  split
  · exact h.start rfl (htext.imp_right fun hline => ⟨rfl, hline⟩) line'
  · exact h.start rfl (htext.imp_right fun hline => ⟨rfl, hline⟩) line'

theorem Relaid.startSubscription (h : b.Relaid number b') (pool : String) (line' : Nat) :
    (b.startSubscription pool text line).Relaid number
      (b'.startSubscription pool text' line') := by
  have hstarted : (b.start ⟨.poolAccess pool, pool, [], text⟩ line).Relaid number
      (b'.start ⟨.poolAccess pool, pool, [], text'⟩ line') :=
    h.start rfl (htext.imp_right fun hline => ⟨rfl, hline⟩) line'
  refine ⟨{ hstarted.program with subscriptions := ?_ }, hstarted.current, ?_⟩
  · simp only [Builder.startSubscription, List.map_append]
    rw [hstarted.program.subscriptions, h.program.pipelines, h.program.size_nodes]
    rfl
  · simp only [Builder.startSubscription, List.map_append]
    rw [hstarted.references]
    rfl

omit htext in
theorem Relaid.declare (h : b.Relaid number b') (name initial : String) (line line' : Nat) :
    (b.declare name initial line).Relaid number (b'.declare name initial line') := by
  unfold Builder.declare
  simp only [h.program.contains_pools]
  split
  · exact ⟨(h.program.warn line line' _).declare rfl, h.current, h.references⟩
  · exact ⟨h.program.declare rfl, h.current, h.references⟩

/-- What a line says is added to both. -/
theorem Relaid.addStatement (h : b.Relaid number b') (line' : Nat) (statement : Statement) :
    (b.addStatement line text statement).Relaid number
      (b'.addStatement line' text' statement) := by
  cases statement with
  | importLibrary library localName =>
    refine ⟨{ h.program with imports := ?_ }, rfl, h.references⟩
    simp only [Builder.addStatement, Builder.close, List.map_append]
    rw [h.program.imports]
    rfl
  | function name =>
    refine ⟨{ h.program.warn line line' _ with stubs := ?_ }, rfl, h.references⟩
    simp only [Builder.addStatement, Builder.close, Builder.warn, Program.warn, List.map_append]
    rw [h.program.stubs]
    rfl
  | pool name initial => exact h.close.declare name initial line line'
  | stream live literal segments =>
    exact (h.startStream htext live literal line').extend line line' segments
  | continuation segments =>
    have hleft : Relaid number { b with current := b.current.map OpenPipeline.leaveBranches }
        { b' with current := b'.current.map OpenPipeline.leaveBranches } :=
      ⟨h.program, congrArg (Option.map _) h.current, h.references⟩
    exact hleft.extend line line' segments
  | branch segments => exact h.extend line line' segments
  | subscription pool segments =>
    exact (h.startSubscription htext pool line').extend line line' segments
  | malformed problem => exact h.close.warn line line' problem

omit htext in
/-- A line that is read by both adds the same to both, wherever it stands. -/
theorem Relaid.addLine (h : b.Relaid number b') (line line' : Nat) (text : String) :
    (b.addLine ⟨line, text⟩).Relaid number (b'.addLine ⟨line', text⟩) := by
  unfold Builder.addLine
  simp only
  split
  · exact h.addStatement (.inl rfl) line' _
  · exact (h.warn line line' _).addStatement (.inl rfl) line' _

omit htext in
theorem Relaid.foldl (h : b.Relaid number b') {lines lines' : List Source.Line}
    (hlines : lines'.map Source.Line.text = lines.map Source.Line.text) :
    (lines.foldl Builder.addLine b).Relaid number (lines'.foldl Builder.addLine b') := by
  induction lines generalizing lines' b b' with
  | nil =>
    rw [List.map_nil, List.map_eq_nil_iff] at hlines
    rw [hlines]
    exact h
  | cons line lines ih =>
    obtain ⟨line', others, rfl, htext, hothers⟩ := List.map_eq_cons_iff.1 hlines
    obtain ⟨number', text'⟩ := line'
    cases htext
    exact ih (h.addLine line.number number' line.text) hothers

-- ============================================================================
-- Finishing
-- ============================================================================

omit htext in
theorem relaid_implyPools {p p' : Program} (h : p.Relaid number p')
    {references references' : List (String × Nat)}
    (hreferences : references'.map Prod.fst = references.map Prod.fst) :
    (implyPools p references).Relaid number (implyPools p' references') := by
  induction references generalizing p p' references' with
  | nil =>
    rw [List.map_nil, List.map_eq_nil_iff] at hreferences
    rw [hreferences]
    exact h
  | cons reference references ih =>
    obtain ⟨⟨pool, line'⟩, others, rfl, hpool, hothers⟩ := List.map_eq_cons_iff.1 hreferences
    obtain ⟨pool, line⟩ := reference
    cases hpool
    simp only [implyPools, h.contains_pools]
    split
    · exact ih h hothers
    · have hdeclared : ((p.warn line (.undeclaredPool pool)).declare
            ⟨pool, "null", line, true⟩).Relaid number
          ((p'.warn line' (.undeclaredPool pool)).declare ⟨pool, "null", line', true⟩) :=
        (h.warn line line' (.undeclaredPool pool)).declare rfl
      exact ih hdeclared hothers

omit htext in
/-- The connections from pool writes to subscriptions are the same. -/
theorem feeds_relaid {p p' : Program} (h : p.Relaid number p') : feeds p' = feeds p := by
  have hroots : ∀ pool, (p'.subscribersOf pool).map Subscription.root =
      (p.subscribersOf pool).map Subscription.root := by
    intro pool
    have hfiltered := congrArg (fun subscriptions : List Subscription =>
      (subscriptions.filter fun s => s.pool == pool).map Subscription.root) h.subscriptions
    simp only [List.filter_map, List.map_map] at hfiltered
    exact hfiltered
  have hedges : ∀ (id : NodeId) (pool : String),
      ((p'.subscribersOf pool).map fun s => (id, s.root)) =
        ((p.subscribersOf pool).map fun s => (id, s.root)) := by
    intro id pool
    have hpaired := congrArg (List.map fun root => ((id, root) : NodeId × NodeId)) (hroots pool)
    rwa [List.map_map, List.map_map] at hpaired
  have hnodes := h.nodes
  unfold feeds
  generalize p.nodes.toList = nodes at hnodes
  generalize p'.nodes.toList = nodes' at hnodes
  induction hnodes with
  | nil => rfl
  | @cons node node' nodes nodes' hnode _ ih =>
    rw [List.flatMap_cons, List.flatMap_cons, ih, hnode.id, hnode.kind]
    simp only [hedges]

omit htext in
theorem Relaid.finish (h : b.Relaid number b') : b.finish.Relaid number b'.finish := by
  have himplied := relaid_implyPools h.program h.references
  simp only [Builder.finish]
  rw [feeds_relaid himplied]
  generalize feeds _ = edges
  generalize implyPools b.program b.references = p at himplied ⊢
  generalize implyPools b'.program b'.references = p' at himplied ⊢
  induction edges generalizing p p' with
  | nil => exact himplied
  | cons edge edges ih => exact ih _ _ (himplied.connect edge.1 edge.2 .poolRead)

end Builder

end Sluice
