/-
  Sluice.Proofs.Program.Append

  The graph of two sources, one written below the other. The lines of the second source build
  behind the graph of the first what they build on their own, moved by constants: ids go up by
  the nodes, pipelines and connections that are there already, line numbers by the lines.

  All that a builder hands from one line to the next, beside the graph, is the open pipeline.
  Only continuations and branches look at it, so a source that starts with neither leaves what
  it finds behind, however malformed the lines were that built it.
-/

import Sluice.Proofs.Program.Build
import Sluice.Proofs.Source.Scan

namespace Sluice

-- ============================================================================
-- Moving a graph
-- ============================================================================

namespace Program

/-- By how much a graph moves. -/
structure Shift where
  nodes : Nat
  pipelines : Nat
  connections : Nat
  lines : Nat

/-- By how much a graph moves behind another one, which takes up some lines. -/
def shift (base : Program) (lines : Nat) : Shift :=
  ⟨base.nodes.size, base.pipelineCount, base.connections.size, lines⟩

/-- The connections within pipelines. -/
def pipeFlow (p : Program) : List Connection :=
  p.connections.toList.filter fun c => c.kind = .pipe

end Program

section

variable (k : Program.Shift)

/-- A node of a graph that moved. -/
def Node.shifted (node : Node) : Node :=
  { node with
    id := node.id + k.nodes
    line := node.line + k.lines
    pipeline := node.pipeline + k.pipelines
    scope := node.scope.map (· + k.nodes) }

/-- A connection of a graph that moved. -/
def Connection.shifted (c : Connection) : Connection :=
  { c with
    id := c.id + k.connections
    source := c.source + k.nodes
    target := c.target + k.nodes }

/-- A subscription of a graph that moved. -/
def Subscription.shifted (s : Subscription) : Subscription :=
  { s with
    pipeline := s.pipeline + k.pipelines
    root := s.root + k.nodes
    line := s.line + k.lines }

/-- An import of a graph that moved. -/
def Import.shifted (i : Import) : Import :=
  { i with line := i.line + k.lines }

/-- A function of a graph that moved. -/
def FunctionStub.shifted (stub : FunctionStub) : FunctionStub :=
  { stub with line := stub.line + k.lines }

/-- The open pipeline of a graph that moved. -/
def OpenPipeline.shifted (pipeline : OpenPipeline) : OpenPipeline :=
  { pipeline with
    id := pipeline.id + k.pipelines
    tail := pipeline.tail + k.nodes
    scope := pipeline.scope.map (· + k.nodes)
    anchor := pipeline.anchor.map (· + k.nodes) }

end

/-- A graph that consists of another one, `base`, and a graph `p` behind it. Pools and warnings
do not matter. -/
structure Program.Behind (base : Program) (lines : Nat) (p whole : Program) : Prop where
  nodes : whole.nodes.toList =
    base.nodes.toList ++ p.nodes.toList.map (Node.shifted (base.shift lines))
  connections : whole.connections.toList =
    base.connections.toList ++ p.connections.toList.map (Connection.shifted (base.shift lines))
  subscriptions : whole.subscriptions =
    base.subscriptions ++ p.subscriptions.map (Subscription.shifted (base.shift lines))
  imports : whole.imports = base.imports ++ p.imports.map (Import.shifted (base.shift lines))
  stubs : whole.stubs = base.stubs ++ p.stubs.map (FunctionStub.shifted (base.shift lines))
  pipelines : whole.pipelineCount = p.pipelineCount + base.pipelineCount

namespace Program.Behind

variable {base p whole : Program} {lines : Nat}

/-- At first nothing stands behind the base. -/
theorem empty (base : Program) (lines : Nat) (warnings : List Warning) :
    base.Behind lines { warnings } base where
  nodes := (List.append_nil _).symm
  connections := (List.append_nil _).symm
  subscriptions := (List.append_nil _).symm
  imports := (List.append_nil _).symm
  stubs := (List.append_nil _).symm
  pipelines := (Nat.zero_add _).symm

theorem warn (h : base.Behind lines p whole) (line line' : Nat) (problem problem' : Problem) :
    base.Behind lines (p.warn line problem) (whole.warn line' problem') :=
  ⟨h.nodes, h.connections, h.subscriptions, h.imports, h.stubs, h.pipelines⟩

theorem size_nodes (h : base.Behind lines p whole) :
    whole.nodes.size = p.nodes.size + (base.shift lines).nodes := by
  have hlength := congrArg List.length h.nodes
  rw [List.length_append, List.length_map] at hlength
  show whole.nodes.size = p.nodes.size + base.nodes.size
  rw [Nat.add_comm]
  exact hlength

theorem size_connections (h : base.Behind lines p whole) :
    whole.connections.size = p.connections.size + (base.shift lines).connections := by
  have hlength := congrArg List.length h.connections
  rw [List.length_append, List.length_map] at hlength
  show whole.connections.size = p.connections.size + base.connections.size
  rw [Nat.add_comm]
  exact hlength

/-- A node is added at the end of both. -/
theorem addNode (h : base.Behind lines p whole) (segment : Segment) (line : Nat)
    (pipeline : PipelineId) (scope : Option NodeId) :
    base.Behind lines (p.addNode segment line pipeline scope)
      (whole.addNode segment (line + lines) (pipeline + (base.shift lines).pipelines)
        (scope.map (· + (base.shift lines).nodes))) where
  nodes := by
    rw [Program.addNode, Program.addNode, Array.toList_push, Array.toList_push, List.map_append,
      ← List.append_assoc, ← h.nodes, h.size_nodes]
    rfl
  connections := h.connections
  subscriptions := h.subscriptions
  imports := h.imports
  stubs := h.stubs
  pipelines := h.pipelines

/-- A connection is added at the end of both. -/
theorem connect (h : base.Behind lines p whole) (source target : NodeId) (kind : ConnectionKind) :
    base.Behind lines (p.connect source target kind)
      (whole.connect (source + (base.shift lines).nodes) (target + (base.shift lines).nodes)
        kind) where
  nodes := h.nodes
  connections := by
    rw [Program.connect, Program.connect, Array.toList_push, Array.toList_push, List.map_append,
      ← List.append_assoc, ← h.connections, h.size_connections]
    rfl
  subscriptions := h.subscriptions
  imports := h.imports
  stubs := h.stubs
  pipelines := h.pipelines

end Program.Behind

-- ============================================================================
-- Segments
-- ============================================================================

namespace Builder

variable {base : Program} {lines : Nat}

/-- Two builders at work on the same pipeline, one of them behind a graph. -/
structure Beside (base : Program) (lines : Nat) (state whole : Builder × OpenPipeline) :
    Prop where
  program : base.Behind lines state.1.program whole.1.program
  pipeline : whole.2 = state.2.shifted (base.shift lines)

theorem Beside.addBranch {b whole : Builder} {pipeline : OpenPipeline}
    (h : base.Behind lines b.program whole.program) (segment : Segment) (line : Nat) :
    Beside base lines (b.addBranch pipeline segment line)
      (whole.addBranch (pipeline.shifted (base.shift lines)) segment (line + lines)) := by
  let moved := pipeline.shifted (base.shift lines)
  have hanchor : moved.anchor.getD moved.tail =
      pipeline.anchor.getD pipeline.tail + (base.shift lines).nodes := by
    show (pipeline.anchor.map _).getD _ = _
    cases pipeline.anchor <;> rfl
  -- The anchor is the tail in one of the graphs if it is in the other.
  have hsame : moved.anchor.getD moved.tail = moved.tail ↔
      pipeline.anchor.getD pipeline.tail = pipeline.tail := by
    rw [hanchor]
    exact Nat.add_right_cancel_iff
  have hchained := (h.addNode segment line pipeline.id none).connect pipeline.tail
    b.program.nodes.size .pipe
  refine ⟨?_, ?_⟩
  · simp only [Builder.addBranch]
    rw [h.size_nodes]
    split
    · next htail =>
      rw [if_pos (hsame.2 htail)]
      exact hchained
    · next htail =>
      rw [if_neg fun heq => htail (hsame.1 heq), hanchor]
      exact hchained.connect (pipeline.anchor.getD pipeline.tail) b.program.nodes.size .pipe
  · simp only [Builder.addBranch, OpenPipeline.shifted, Option.map_some]
    rw [h.size_nodes]
    have hcloses : decide (moved.anchor.getD moved.tail ≠ moved.tail) =
        decide (pipeline.anchor.getD pipeline.tail ≠ pipeline.tail) :=
      decide_eq_decide.2 (not_congr hsame)
    exact congrArg₂ (fun anchor closes =>
      (⟨_, _, some (b.program.nodes.size + _), some anchor, closes⟩ : OpenPipeline))
      hanchor hcloses

theorem Beside.addOperator {b whole : Builder} {pipeline : OpenPipeline}
    (h : base.Behind lines b.program whole.program) (segment : Segment) (line : Nat) :
    Beside base lines (b.addOperator pipeline segment line)
      (whole.addOperator (pipeline.shifted (base.shift lines)) segment (line + lines)) := by
  have hleave : (if isTerminalName segment.name &&
        (pipeline.shifted (base.shift lines)).closesAtTerminal
      then (pipeline.shifted (base.shift lines)).leaveBranches
      else pipeline.shifted (base.shift lines)) =
      (if isTerminalName segment.name && pipeline.closesAtTerminal then pipeline.leaveBranches
        else pipeline).shifted (base.shift lines) := by
    show (if isTerminalName segment.name && pipeline.closesAtTerminal then _ else _) = _
    split <;> rfl
  simp only [Builder.addOperator]
  rw [hleave]
  have hchained := (h.addNode segment line (if isTerminalName segment.name &&
    pipeline.closesAtTerminal then pipeline.leaveBranches else pipeline).id
    (if isTerminalName segment.name && pipeline.closesAtTerminal then pipeline.leaveBranches
      else pipeline).scope).connect (if isTerminalName segment.name && pipeline.closesAtTerminal
    then pipeline.leaveBranches else pipeline).tail b.program.nodes.size .pipe
  rw [← h.size_nodes] at hchained
  refine ⟨hchained, ?_⟩
  simp only [OpenPipeline.shifted]
  rw [h.size_nodes]

theorem Beside.addSegment {state whole : Builder × OpenPipeline}
    (h : Beside base lines state whole) (line : Nat) (source : List Char) :
    Beside base lines (Builder.addSegment line state source)
      (Builder.addSegment (line + lines) whole source) := by
  obtain ⟨b, pipeline⟩ := state
  obtain ⟨whole, moved⟩ := whole
  obtain ⟨hprogram, hmoved⟩ := h
  simp only at hprogram hmoved
  rw [hmoved]
  simp only [Builder.addSegment]
  split
  · exact ⟨hprogram.warn _ _ _ _, rfl⟩
  · split
    · exact .addBranch hprogram _ line
    · exact .addOperator hprogram _ line

theorem Beside.foldl {state whole : Builder × OpenPipeline} (h : Beside base lines state whole)
    (line : Nat) (segments : List (List Char)) :
    Beside base lines (segments.foldl (Builder.addSegment line) state)
      (segments.foldl (Builder.addSegment (line + lines)) whole) := by
  induction segments generalizing state whole with
  | nil => exact h
  | cons source rest ih => exact ih (h.addSegment line source)

-- ============================================================================
-- Lines
-- ============================================================================

/-- Two builders that have come equally far, one of them behind a graph. -/
structure Follows (base : Program) (lines : Nat) (b whole : Builder) : Prop where
  program : base.Behind lines b.program whole.program
  current : whole.current = b.current.map (OpenPipeline.shifted (base.shift lines))

variable {b whole : Builder}

theorem Follows.extend (h : Follows base lines b whole) (line : Nat)
    (segments : List (List Char)) :
    Follows base lines (b.extend line segments) (whole.extend (line + lines) segments) := by
  obtain ⟨hprogram, hcurrent⟩ := h
  unfold Builder.extend
  cases hopen : b.current with
  | none =>
    rw [hopen, Option.map_none] at hcurrent
    rw [hcurrent]
    exact ⟨hprogram.warn _ _ _ _, by rw [Builder.warn, Builder.warn, hcurrent, hopen]; rfl⟩
  | some pipeline =>
    rw [hopen, Option.map_some] at hcurrent
    rw [hcurrent]
    have hbeside : Beside base lines (b, pipeline) (whole, pipeline.shifted (base.shift lines)) :=
      ⟨hprogram, rfl⟩
    obtain ⟨hprogram', hpipeline'⟩ := hbeside.foldl line segments
    exact ⟨hprogram', congrArg some hpipeline'⟩

/-- A new pipeline is open, whatever was open before. -/
theorem Follows.start (h : base.Behind lines b.program whole.program) (segment : Segment)
    (line : Nat) :
    Follows base lines (b.start segment line) (whole.start segment (line + lines)) := by
  have hadded := h.addNode segment line b.program.pipelineCount none
  have hpipeline : whole.program.pipelineCount =
      b.program.pipelineCount + (base.shift lines).pipelines := h.pipelines
  refine ⟨⟨?_, h.connections, h.subscriptions, h.imports, h.stubs, ?_⟩, ?_⟩
  · rw [Builder.start, Builder.start, hpipeline]
    exact hadded.nodes
  · show whole.program.pipelineCount + 1 = b.program.pipelineCount + 1 + base.pipelineCount
    rw [h.pipelines]
    omega
  · show some (OpenPipeline.mk whole.program.pipelineCount whole.program.nodes.size none none
      false) = _
    rw [hpipeline, h.size_nodes]
    rfl

theorem Follows.startStream (h : base.Behind lines b.program whole.program) (live : Bool)
    (literal text : String) (line : Nat) :
    Follows base lines (b.startStream live literal text line)
      (whole.startStream live literal text (line + lines)) := by
  unfold Builder.startStream
  split
  · exact .start h _ line
  · exact .start h _ line

theorem Follows.startSubscription (h : base.Behind lines b.program whole.program)
    (pool text : String) (line : Nat) :
    Follows base lines (b.startSubscription pool text line)
      (whole.startSubscription pool text (line + lines)) := by
  obtain ⟨hprogram, hcurrent⟩ := Follows.start h ⟨.poolAccess pool, pool, [], text⟩ line
  have hpipeline : whole.program.pipelineCount =
      b.program.pipelineCount + (base.shift lines).pipelines := h.pipelines
  refine ⟨⟨hprogram.nodes, hprogram.connections, ?_, hprogram.imports, hprogram.stubs,
    hprogram.pipelines⟩, hcurrent⟩
  show whole.program.subscriptions ++ [_] =
    base.subscriptions ++ (b.program.subscriptions ++ [_]).map _
  rw [List.map_append, ← List.append_assoc, ← h.subscriptions, hpipeline, h.size_nodes]
  rfl

theorem Follows.declare (h : base.Behind lines b.program whole.program) (name initial : String)
    (line line' : Nat) :
    Follows base lines (b.close.declare name initial line)
      (whole.close.declare name initial line') := by
  unfold Builder.declare
  split
  · split
    · exact ⟨⟨h.nodes, h.connections, h.subscriptions, h.imports, h.stubs, h.pipelines⟩, rfl⟩
    · exact ⟨⟨h.nodes, h.connections, h.subscriptions, h.imports, h.stubs, h.pipelines⟩, rfl⟩
  · split
    · exact ⟨⟨h.nodes, h.connections, h.subscriptions, h.imports, h.stubs, h.pipelines⟩, rfl⟩
    · exact ⟨⟨h.nodes, h.connections, h.subscriptions, h.imports, h.stubs, h.pipelines⟩, rfl⟩

/-- What a line says that does not go on with the open pipeline. -/
def Fresh : Statement → Prop
  | .continuation _ | .branch _ => False
  | _ => True

instance : DecidablePred Fresh
  | .continuation _ | .branch _ => isFalse id
  | .importLibrary _ _ | .function _ | .pool _ _ | .stream _ _ _ | .subscription _ _
  | .malformed _ => isTrue trivial

/-- Every line adds the same to both; one that does not go on with the open pipeline does so
whatever pipeline is open. -/
theorem Follows.addStatement (h : base.Behind lines b.program whole.program)
    (statement : Statement)
    (hcurrent : Fresh statement ∨
      whole.current = b.current.map (OpenPipeline.shifted (base.shift lines)))
    (line : Nat) (text : String) :
    Follows base lines (b.addStatement line text statement)
      (whole.addStatement (line + lines) text statement) := by
  cases statement with
  | importLibrary library localName =>
    refine ⟨⟨h.nodes, h.connections, h.subscriptions, ?_, h.stubs, h.pipelines⟩, rfl⟩
    show whole.program.imports ++ [_] = base.imports ++ (b.program.imports ++ [_]).map _
    rw [List.map_append, ← List.append_assoc, ← h.imports]
    rfl
  | function name =>
    refine ⟨⟨h.nodes, h.connections, h.subscriptions, h.imports, ?_, h.pipelines⟩, rfl⟩
    show whole.program.stubs ++ [_] = base.stubs ++ (b.program.stubs ++ [_]).map _
    rw [List.map_append, ← List.append_assoc, ← h.stubs]
    rfl
  | pool name initial => exact .declare h name initial line _
  | stream live literal segments =>
    exact (Follows.startStream h live literal text line).extend line segments
  | continuation segments =>
    have hleft : whole.current.map OpenPipeline.leaveBranches =
        (b.current.map OpenPipeline.leaveBranches).map
          (OpenPipeline.shifted (base.shift lines)) := by
      rw [hcurrent.resolve_left id, Option.map_map, Option.map_map]
      rfl
    have hopen : Follows base lines
        { b with current := b.current.map OpenPipeline.leaveBranches }
        { whole with current := whole.current.map OpenPipeline.leaveBranches } := ⟨h, hleft⟩
    exact hopen.extend line segments
  | branch segments => exact Follows.extend ⟨h, hcurrent.resolve_left id⟩ line segments
  | subscription pool segments =>
    exact (Follows.startSubscription h pool text line).extend line segments
  | malformed problem =>
    exact ⟨h.warn _ _ _ _, rfl⟩

theorem Follows.addLine (h : base.Behind lines b.program whole.program) (line : Source.Line)
    (hcurrent : Fresh (Statement.ofChars line.text.toList) ∨
      whole.current = b.current.map (OpenPipeline.shifted (base.shift lines))) :
    Follows base lines (b.addLine line) (whole.addLine (line.below lines)) := by
  show Follows base lines
    (Builder.addStatement (if Source.isBalanced line.text.toList then b
      else b.warn line.number (.unbalanced line.text)) line.number line.text _)
    (Builder.addStatement (if Source.isBalanced line.text.toList then whole
      else whole.warn (line.number + lines) (.unbalanced line.text)) (line.number + lines)
      line.text _)
  split
  · exact .addStatement h _ hcurrent line.number line.text
  · have hwarned : base.Behind lines (b.warn line.number (.unbalanced line.text)).program
        (whole.warn (line.number + lines) (.unbalanced line.text)).program := h.warn _ _ _ _
    exact .addStatement hwarned _ hcurrent line.number line.text

theorem Follows.foldl (h : Follows base lines b whole) (more : List Source.Line) :
    Follows base lines (more.foldl Builder.addLine b)
      ((more.map (Source.Line.below lines)).foldl Builder.addLine whole) := by
  induction more generalizing b whole with
  | nil => exact h
  | cons line rest ih => exact ih (.addLine h.program line (.inr h.current))

/-- Lines that start with a fresh one build the same behind any graph. -/
theorem behind_foldl (h : base.Behind lines b.program whole.program) (more : List Source.Line)
    (hfresh : ∀ line, more.head? = some line → Fresh (Statement.ofChars line.text.toList)) :
    base.Behind lines (more.foldl addLine b).program
      ((more.map (Source.Line.below lines)).foldl addLine whole).program := by
  cases more with
  | nil => exact h
  | cons line rest =>
    have hfirst := Follows.addLine h line (.inl (hfresh line rfl))
    exact (hfirst.foldl rest).program

-- ============================================================================
-- Connections within pipelines
-- ============================================================================

end Builder

/-- A graph whose connections are all within pipelines. -/
def Program.Piped (p : Program) : Prop :=
  ∀ c ∈ p.connections.toList, c.kind = .pipe

theorem Program.Piped.connect {p : Program} (h : p.Piped) (source target : NodeId) :
    (p.connect source target .pipe).Piped := by
  intro c hc
  rw [Program.connect, Array.toList_push] at hc
  rcases List.mem_append.1 hc with hold | hnew
  · exact h c hold
  · rw [List.mem_singleton.1 hnew]

theorem Program.Piped.pipeFlow_eq {p : Program} (h : p.Piped) :
    p.pipeFlow = p.connections.toList :=
  List.filter_eq_self.2 fun c hc => decide_eq_true (h c hc)

namespace Builder

variable {b : Builder}

theorem piped_addSegment {state : Builder × OpenPipeline} (h : state.1.program.Piped) (line : Nat)
    (source : List Char) : (addSegment line state source).1.program.Piped := by
  obtain ⟨b, pipeline⟩ := state
  have hchained : ∀ (segment : Segment) (q : OpenPipeline) (scope : Option NodeId),
      ((b.program.addNode segment line q.id scope).connect q.tail b.program.nodes.size
        .pipe).Piped :=
    fun segment q scope =>
      Program.Piped.connect (p := b.program.addNode segment line q.id scope) h _ _
  simp only [addSegment]
  split
  · exact h
  · next segment hread =>
    split
    · show (if _ then _ else _ : Program).Piped
      split
      · exact hchained segment pipeline none
      · exact (hchained segment pipeline none).connect _ _
    · exact hchained segment _ _

theorem piped_extend (h : b.program.Piped) (line : Nat) (segments : List (List Char)) :
    (b.extend line segments).program.Piped := by
  have hfold : ∀ state : Builder × OpenPipeline, state.1.program.Piped →
      (segments.foldl (addSegment line) state).1.program.Piped := by
    induction segments with
    | nil => exact fun _ hstate => hstate
    | cons source rest ih => exact fun _ hstate => ih _ (piped_addSegment hstate line source)
  unfold extend
  split
  · exact h
  · exact hfold _ h

theorem piped_addLine (h : b.program.Piped) (line : Source.Line) :
    (b.addLine line).program.Piped := by
  have hstatement : ∀ (b : Builder) (statement : Statement), b.program.Piped →
      (b.addStatement line.number line.text statement).program.Piped := by
    intro b statement h
    cases statement with
    | importLibrary library localName => exact h
    | function name => exact h
    | pool name initial =>
      show (if _ then _ else _ : Builder).program.Piped
      split
      · exact h
      · exact h
    | stream live literal segments =>
      refine piped_extend ?_ line.number segments
      unfold startStream
      split
      · exact h
      · exact h
    | continuation segments =>
      exact piped_extend (b := { b with current := b.current.map OpenPipeline.leaveBranches }) h _
        segments
    | branch segments => exact piped_extend h _ segments
    | subscription pool segments =>
      exact piped_extend (b := b.startSubscription pool _ _) h _ segments
    | malformed problem => exact h
  unfold addLine
  simp only
  split
  · exact hstatement b _ h
  · exact hstatement (b.warn _ _) _ h

theorem piped_foldl (h : b.program.Piped) (lines : List Source.Line) :
    (lines.foldl addLine b).program.Piped := by
  induction lines generalizing b with
  | nil => exact h
  | cons line rest ih => exact ih (piped_addLine h line)

end Builder

-- ============================================================================
-- Whole sources
-- ============================================================================

/-- Graphs that differ at most in pools, warnings and the connections from pool writes to
subscriptions. -/
structure Program.Agrees (p q : Program) : Prop where
  nodes : p.nodes = q.nodes
  pipeFlow : p.pipeFlow = q.pipeFlow
  subscriptions : p.subscriptions = q.subscriptions
  imports : p.imports = q.imports
  stubs : p.stubs = q.stubs
  pipelines : p.pipelineCount = q.pipelineCount

namespace Program

variable {p q r : Program}

theorem Agrees.trans (h : p.Agrees q) (h' : q.Agrees r) : p.Agrees r :=
  ⟨h.nodes.trans h'.nodes, h.pipeFlow.trans h'.pipeFlow,
    h.subscriptions.trans h'.subscriptions, h.imports.trans h'.imports, h.stubs.trans h'.stubs,
    h.pipelines.trans h'.pipelines⟩

theorem agrees_implyPools (p : Program) (references : List (String × Nat)) :
    (Builder.implyPools p references).Agrees p := by
  induction references generalizing p with
  | nil => exact ⟨rfl, rfl, rfl, rfl, rfl, rfl⟩
  | cons reference rest ih =>
    unfold Builder.implyPools
    split
    · exact ih p
    · exact (ih _).trans ⟨rfl, rfl, rfl, rfl, rfl, rfl⟩

theorem agrees_feed (p : Program) (edges : List (Nat × Nat)) :
    (edges.foldl (fun p (source, target) => p.connect source target .poolRead) p).Agrees p := by
  induction edges generalizing p with
  | nil => exact ⟨rfl, rfl, rfl, rfl, rfl, rfl⟩
  | cons edge rest ih =>
    refine (ih _).trans ⟨rfl, ?_, rfl, rfl, rfl, rfl⟩
    show List.filter _ (p.connections.push _).toList = _
    rw [Array.toList_push, List.filter_append]
    exact List.append_nil _

/-- Finishing a graph only implies pools and feeds subscriptions. -/
theorem agrees_finish (b : Builder) : b.finish.Agrees b.program :=
  (agrees_feed _ _).trans (agrees_implyPools b.program b.references)

/-- Behind nothing a graph is where it is. -/
theorem Behind.agrees {p whole : Program} (h : Behind {} 0 p whole) : whole.Agrees p := by
  have hnode : Node.shifted (shift {} 0) = id := by
    funext node
    simp [Node.shifted, shift]
  have hconnection : Connection.shifted (shift {} 0) = id := by
    funext c
    simp [Connection.shifted, shift]
  have hsubscription : Subscription.shifted (shift {} 0) = id := by
    funext s
    simp [Subscription.shifted, shift]
  have himport : Import.shifted (shift {} 0) = id := rfl
  have hstub : FunctionStub.shifted (shift {} 0) = id := rfl
  obtain ⟨hnodes, hconnections, hsubscriptions, himports, hstubs, hpipelines⟩ := h
  rw [hnode, List.map_id] at hnodes
  rw [hconnection, List.map_id] at hconnections
  rw [hsubscription, List.map_id] at hsubscriptions
  rw [himport, List.map_id] at himports
  rw [hstub, List.map_id] at hstubs
  exact ⟨Array.toList_inj.1 hnodes, congrArg (List.filter _) hconnections, hsubscriptions,
    himports, hstubs, hpipelines⟩

/-- The warnings that building starts from do not matter to the rest of the graph. -/
theorem parse_agrees (source : String) (warnings : List Warning) :
    (parse source).Agrees
      ((Source.scan source).lines.foldl Builder.addLine { program := { warnings } }).program := by
  have hbelow : Source.Line.below 0 = id := rfl
  have hbehind : ∀ more, Behind {} 0
      ((Source.scan source).lines.foldl Builder.addLine { program := { warnings } }).program
      ((Source.scan source).lines.foldl Builder.addLine
        { program := { warnings := more } }).program := by
    intro more
    have hstart : Builder.Follows {} 0 { program := { warnings } }
        { program := { warnings := more } } :=
      ⟨⟨rfl, rfl, rfl, rfl, rfl, rfl⟩, rfl⟩
    have hfolded := hstart.foldl (Source.scan source).lines
    rw [hbelow, List.map_id] at hfolded
    exact hfolded.program
  unfold parse
  simp only
  split
  · exact (agrees_finish _).trans (hbehind _).agrees
  · exact (agrees_finish _).trans (hbehind []).agrees

/-- A source below another one builds the same graph behind that of the first: the constants by
which it moves are the sizes of the first graph and the number of its lines. The first source
closes its block comments, and the second one starts with a line that does not go on with an
open pipeline. -/
theorem parse_append (first second : String)
    (hclosed : (Source.scan first).unterminated = none)
    (hfresh : ∀ line, (Source.scan second).lines.head? = some line →
      Builder.Fresh (Statement.ofChars line.text.toList)) :
    let whole := parse (first ++ "\n" ++ second)
    let k : Shift := ⟨(parse first).nodes.size, (parse first).pipelineCount,
      (parse first).pipeFlow.length, first.toList.count '\n' + 1⟩
    whole.nodes.toList =
        (parse first).nodes.toList ++ (parse second).nodes.toList.map (Node.shifted k) ∧
      whole.pipeFlow =
        (parse first).pipeFlow ++ (parse second).pipeFlow.map (Connection.shifted k) ∧
      whole.subscriptions =
        (parse first).subscriptions ++ (parse second).subscriptions.map (Subscription.shifted k) ∧
      whole.imports = (parse first).imports ++ (parse second).imports.map (Import.shifted k) ∧
      whole.stubs = (parse first).stubs ++ (parse second).stubs.map (FunctionStub.shifted k) := by
  intro whole k
  have hempty : Piped {} := by
    intro c hc
    cases hc
  let start : Builder := {}
  let built := (Source.scan first).lines.foldl Builder.addLine start
  let more := (Source.scan second).lines.foldl Builder.addLine start
  let lines := first.toList.count '\n' + 1
  let both := ((Source.scan second).lines.map (Source.Line.below lines)).foldl Builder.addLine built
  have hfirst : (parse first).Agrees built.program := parse_agrees first []
  have hsecond : (parse second).Agrees more.program := parse_agrees second []
  have hwhole : whole.Agrees both.program := by
    have hagrees := parse_agrees (first ++ "\n" ++ second) []
    rw [Source.scan_append hclosed, List.foldl_append] at hagrees
    exact hagrees
  have hbehind : built.program.Behind lines more.program both.program :=
    Builder.behind_foldl (.empty built.program lines []) _ hfresh
  have hbuilt : built.program.Piped := Builder.piped_foldl hempty _
  have hmore : more.program.Piped := Builder.piped_foldl hempty _
  have hboth : both.program.Piped := Builder.piped_foldl hbuilt _
  have hk : built.program.shift lines = k := by
    show Shift.mk _ _ _ _ = Shift.mk _ _ _ _
    rw [hfirst.nodes, hfirst.pipelines, hfirst.pipeFlow, hbuilt.pipeFlow_eq, Array.length_toList]
  rw [← hk, hwhole.nodes, hwhole.pipeFlow, hwhole.subscriptions, hwhole.imports, hwhole.stubs,
    hfirst.nodes, hfirst.pipeFlow, hfirst.subscriptions, hfirst.imports, hfirst.stubs,
    hsecond.nodes, hsecond.pipeFlow, hsecond.subscriptions, hsecond.imports, hsecond.stubs,
    hbuilt.pipeFlow_eq, hmore.pipeFlow_eq, hboth.pipeFlow_eq]
  exact ⟨hbehind.nodes, hbehind.connections, hbehind.subscriptions, hbehind.imports,
    hbehind.stubs⟩

/-- A source that ends within a branch, with hardly a line that is well formed. -/
def tornSource : String :=
  "~ [1 | split\nimport a b c\n~ 2 | split | add(\nTRUE_FLOW | 1 +"

/-- A source that writes the pool it subscribes to. -/
def countingSource : String :=
  "count -> add(1)\n~ 3 | to_pool(count)"

/-- The torn source moves the other one by four nodes, two pipelines, two connections and four
lines. -/
theorem parse_append_torn :
    (parse tornSource).warnings.length = 5 ∧
      (parse (tornSource ++ "\n" ++ countingSource)).nodes.toList =
        (parse tornSource).nodes.toList ++
          (parse countingSource).nodes.toList.map (Node.shifted ⟨4, 2, 2, 4⟩) := by
  have hsizes : (parse tornSource).nodes.size = 4 ∧ (parse tornSource).pipelineCount = 2 ∧
      (parse tornSource).pipeFlow.length = 2 ∧ tornSource.toList.count '\n' = 3 := by
    decide +kernel
  have hfirst : (Source.scan countingSource).lines.head? = some ⟨1, "count -> add(1)"⟩ := by
    decide +kernel
  have hfresh : ∀ line, (Source.scan countingSource).lines.head? = some line →
      Builder.Fresh (Statement.ofChars line.text.toList) := by
    intro line hline
    obtain rfl := Option.some.inj (hfirst.symm.trans hline)
    decide +kernel
  obtain ⟨hnodes, -⟩ := parse_append tornSource countingSource (by decide +kernel) hfresh
  rw [hsizes.1, hsizes.2.1, hsizes.2.2.1, hsizes.2.2.2] at hnodes
  exact ⟨by decide +kernel, hnodes⟩

end Program

end Sluice
