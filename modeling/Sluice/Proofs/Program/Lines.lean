/-
  Sluice.Proofs.Program.Lines

  Which nodes a line adds. Building only appends: a line leaves the nodes before it as they are,
  and its own nodes carry its number. Logical lines are numbered in increasing order, so the
  nodes of a line are found in the finished graph by the number they carry.

  On a branch line the first node is the branch, and the others are in its scope; in a branch
  that is not the first of its group this holds up to the first terminal operator of the line,
  which belongs to all branches, as does everything written behind it.
-/

import Sluice.Proofs.Program.Build

namespace Sluice

/-- One graph grows into another: old nodes stay, and new ones are on certain lines. -/
structure Program.Grows (p p' : Program) (on : Nat → Prop) : Prop where
  size : p.nodes.size ≤ p'.nodes.size
  old : ∀ i < p.nodes.size, p'.node? i = p.node? i
  new : ∀ i node, p.nodes.size ≤ i → p'.node? i = some node → on node.line

namespace Program.Grows

variable {p p' p'' : Program} {on on' : Nat → Prop}

theorem of_nodes (h : p'.nodes = p.nodes) : p.Grows p' on where
  size := Nat.le_of_eq (by rw [h])
  old i _ := by
    unfold node?
    rw [h]
  new i node hi hnode := by
    unfold node? at hnode
    rw [h] at hnode
    have := (Array.getElem?_eq_some_iff.1 hnode).1
    omega

theorem of_push {node : Node} (h : p'.nodes = p.nodes.push node) (hnode : on node.line) :
    p.Grows p' on where
  size := by
    rw [h, Array.size_push]
    exact Nat.le_succ _
  old i hi := node?_push_of_lt h hi
  new i node' hi hnode' := by
    have hlt := lt_size_of_node? hnode'
    rw [h, Array.size_push] at hlt
    obtain rfl : i = p.nodes.size := by omega
    rw [node?_push_self h] at hnode'
    cases hnode'
    exact hnode

theorem trans (h : p.Grows p' on) (h' : p'.Grows p'' on) : p.Grows p'' on where
  size := Nat.le_trans h.size h'.size
  old i hi := (h'.old i (Nat.lt_of_lt_of_le hi h.size)).trans (h.old i hi)
  new i node hi hnode := by
    rcases Nat.lt_or_ge i p'.nodes.size with hlt | hge
    · rw [h'.old i hlt] at hnode
      exact h.new i node hi hnode
    · exact h'.new i node hge hnode

theorem mono (h : p.Grows p' on) (hon : ∀ n, on n → on' n) : p.Grows p' on' :=
  ⟨h.size, h.old, fun i node hi hnode => hon _ (h.new i node hi hnode)⟩

end Program.Grows

-- ============================================================================
-- Lines
-- ============================================================================

namespace Builder

theorem grows_addSegment (line : Nat) (state : Builder × OpenPipeline) (source : List Char) :
    state.1.program.Grows (addSegment line state source).1.program (· = line) := by
  obtain ⟨b, pipeline⟩ := state
  unfold addSegment
  simp only
  split
  · exact .of_nodes rfl
  · split
    · unfold addBranch
      simp only
      split
      · exact .of_push rfl rfl
      · exact .of_push rfl rfl
    · exact .of_push rfl rfl

theorem grows_foldl (line : Nat) (state : Builder × OpenPipeline) (segments : List (List Char)) :
    state.1.program.Grows (segments.foldl (addSegment line) state).1.program (· = line) := by
  induction segments generalizing state with
  | nil => exact .of_nodes rfl
  | cons source rest ih => exact (grows_addSegment line state source).trans (ih _)

theorem grows_extend (b : Builder) (line : Nat) (segments : List (List Char)) :
    b.program.Grows (b.extend line segments).program (· = line) := by
  unfold extend
  split
  · exact .of_nodes rfl
  · next pipeline _ => exact grows_foldl line (b, pipeline) segments

theorem grows_start (b : Builder) (segment : Segment) (line : Nat) :
    b.program.Grows (b.start segment line).program (· = line) :=
  .of_push rfl rfl

theorem grows_startStream (b : Builder) (live : Bool) (literal text : String) (line : Nat) :
    b.program.Grows (b.startStream live literal text line).program (· = line) := by
  unfold startStream
  split <;> exact grows_start ..

theorem grows_declare (b : Builder) (name initial : String) (line : Nat) (on : Nat → Prop) :
    b.program.Grows (b.declare name initial line).program on := by
  unfold declare
  split <;> exact .of_nodes rfl

theorem grows_addStatement (b : Builder) (line : Nat) (text : String) (statement : Statement) :
    b.program.Grows (b.addStatement line text statement).program (· = line) := by
  cases statement with
  | importLibrary library localName => exact .of_nodes rfl
  | function name => exact .of_nodes rfl
  | pool name initial => exact grows_declare b.close name initial line _
  | stream live literal segments =>
    exact (grows_startStream b live literal text line).trans (grows_extend _ line segments)
  | continuation segments =>
    exact grows_extend { b with current := b.current.map OpenPipeline.leaveBranches } line segments
  | branch segments => exact grows_extend b line segments
  | subscription pool segments =>
    have hstart : b.program.Grows (b.startSubscription pool text line).program (· = line) :=
      .of_push rfl rfl
    exact hstart.trans (grows_extend _ line segments)
  | malformed problem => exact .of_nodes rfl

theorem grows_addLine (b : Builder) (line : Source.Line) :
    b.program.Grows (b.addLine line).program (· = line.number) := by
  unfold addLine
  simp only
  split
  · exact grows_addStatement b _ _ _
  · have hwarn : b.program.Grows (b.warn line.number (.unbalanced line.text)).program
        (· = line.number) := .of_nodes rfl
    exact hwarn.trans (grows_addStatement _ _ _ _)

/-- Lines add nodes with numbers of theirs. -/
theorem grows_foldl_addLine (b : Builder) (lines : List Source.Line) :
    b.program.Grows (lines.foldl addLine b).program (· ∈ lines.map (·.number)) := by
  induction lines generalizing b with
  | nil => exact .of_nodes rfl
  | cons line rest ih =>
    refine ((grows_addLine b line).mono fun n hn => ?_).trans ((ih _).mono fun n hn => ?_)
    · rw [hn]
      exact List.mem_cons_self
    · exact List.mem_cons_of_mem _ hn

end Builder

/-- Logical lines are numbered in increasing order. -/
theorem Source.scanLines_increasing (number : Nat) (block : Option Nat) (raws : List (List Char)) :
    ((scanLines number block raws).lines.map (·.number)).Pairwise (· < ·) ∧
      ∀ n ∈ (scanLines number block raws).lines.map (·.number), number ≤ n := by
  induction raws generalizing number block with
  | nil => exact ⟨.nil, List.forall_mem_nil _⟩
  | cons raw rest ih =>
    obtain ⟨hsorted, hfrom⟩ := ih (number + 1) (stripLine number block .outside raw).2
    unfold scanLines
    simp only
    split
    · exact ⟨hsorted, fun n hn => Nat.le_of_succ_le (hfrom n hn)⟩
    · refine ⟨List.pairwise_cons.2 ⟨fun n hn => hfrom n hn, hsorted⟩, fun n hn => ?_⟩
      rcases List.mem_cons.1 hn with rfl | hn
      · exact Nat.le_refl _
      · exact Nat.le_of_succ_le (hfrom n hn)

/-- No two lines of a source have the same number. -/
theorem Source.number_ne {source : String} {before after : List Line} {line : Line}
    (hlines : (scan source).lines = before ++ line :: after) :
    ∀ other ∈ before ++ after, other.number ≠ line.number := by
  have hsorted := (scanLines_increasing 1 none (Text.lines source.toList)).1
  rw [show (scanLines 1 none (Text.lines source.toList)).lines = _ from hlines, List.map_append,
    List.map_cons, List.pairwise_append, List.pairwise_cons] at hsorted
  obtain ⟨-, ⟨hafter, -⟩, hbefore⟩ := hsorted
  intro other hother
  rcases List.mem_append.1 hother with h | h
  · exact Nat.ne_of_lt (hbefore _ (List.mem_map_of_mem h) _ List.mem_cons_self)
  · exact Nat.ne_of_gt (hafter _ (List.mem_map_of_mem h))

-- ============================================================================
-- Segments
-- ============================================================================

/-- A segment that is neither a branch nor a split, or cannot be read. -/
def Segment.isPlain (source : List Char) : Bool :=
  match readChars source with
  | .ok segment => segment.kind.expects?.isNone && !segment.kind.isSplit
  | .error _ => true

/-- The first terminal operator from `m` on. -/
def Program.FirstTerminal (p : Program) (m τ : Nat) : Prop :=
  m ≤ τ ∧ p.isTerminal τ ∧ ∀ j, m ≤ j → j < τ → p.isTerminal j = false

/-- A node that came of a plain segment, when the scope was `scope` from `m` on. If a terminal
operator closes the scope, the node may be at or behind the first of them; neither is then in a
scope. -/
structure Program.Plain (p : Program) (m : Nat) (scope : Option Nat) (closes : Bool) (i : Nat)
    (node : Node) : Prop where
  expects : node.kind.expects? = none
  split : node.kind.isSplit = false
  source : node.kind.isSource = false
  scope : node.scope = scope ∨
    (node.scope = none ∧ closes = true ∧ ∃ τ, p.FirstTerminal m τ ∧ p.scope? τ = none ∧ τ ≤ i)

section

variable {p : Program} {m i : Nat} {scope after : Option Nat} {closes closesAfter : Bool}
  {added node : Node}

/-- A terminal operator that closes the scope is the first, and in none. -/
theorem Program.FirstTerminal.self (hadded : p.node? m = some added)
    (hterminal : added.terminal = true) : p.FirstTerminal m m := by
  refine ⟨Nat.le_refl m, ?_, fun j hj hjm => by omega⟩
  unfold Program.isTerminal
  rw [hadded, Option.any_some]
  exact hterminal

theorem Program.FirstTerminal.cons {τ : Nat} (hadded : p.node? m = some added)
    (hterminal : added.terminal = false) (h : p.FirstTerminal (m + 1) τ) : p.FirstTerminal m τ := by
  obtain ⟨hm, hτ, hfirst⟩ := h
  refine ⟨Nat.le_of_succ_le hm, hτ, fun j hj hjτ => ?_⟩
  rcases Nat.lt_or_eq_of_le hj with hlt | rfl
  · exact hfirst j hlt hjτ
  · unfold Program.isTerminal
    rw [hadded, Option.any_some]
    exact hterminal

theorem Program.scope?_eq_none (hadded : p.node? m = some added) (hscope : added.scope = none) :
    p.scope? m = none := by
  unfold Program.scope?
  rw [hadded, Option.bind_some]
  exact hscope

/-- Where the scope stands once the node at `m` was added: it is closed by a terminal operator,
if it can be, and else goes on. -/
theorem Program.Plain.cons (hadded : p.node? m = some added)
    (hafter : if added.terminal && closes then after = none ∧ closesAfter = false
      else after = scope ∧ closesAfter = closes) (hadds : added.scope = after)
    (hmi : m ≤ i) (h : p.Plain (m + 1) after closesAfter i node) :
    p.Plain m scope closes i node := by
  refine ⟨h.expects, h.split, h.source, ?_⟩
  split at hafter
  · next hclosed =>
    obtain ⟨rfl, rfl⟩ := hafter
    rw [Bool.and_eq_true] at hclosed
    rcases h.scope with hscope | ⟨-, hnever, -⟩
    · exact .inr ⟨hscope, hclosed.2, m, .self hadded hclosed.1, scope?_eq_none hadded hadds, hmi⟩
    · cases hnever
  · next hopen =>
    obtain ⟨rfl, rfl⟩ := hafter
    rcases h.scope with hscope | ⟨hscope, hcloses, τ, hτ, hnone, hτi⟩
    · exact .inl hscope
    · rw [hcloses, Bool.and_true, Bool.not_eq_true] at hopen
      exact .inr ⟨hscope, hcloses, τ, hτ.cons hadded hopen, hnone, hτi⟩

/-- The node at `m` itself. -/
theorem Program.Plain.head (hadded : p.node? m = some added)
    (hkind : added.kind.expects? = none ∧ added.kind.isSplit = false ∧ added.kind.isSource = false)
    (hafter : if added.terminal && closes then after = none ∧ closesAfter = false
      else after = scope ∧ closesAfter = closes) (hscope : added.scope = after) :
    p.Plain m scope closes m added := by
  refine ⟨hkind.1, hkind.2.1, hkind.2.2, ?_⟩
  split at hafter
  · next hclosed =>
    rw [Bool.and_eq_true] at hclosed
    have hnone := hscope.trans hafter.1
    exact .inr ⟨hnone, hclosed.2, m, .self hadded hclosed.1, scope?_eq_none hadded hnone,
      Nat.le_refl m⟩
  · exact .inl (hscope.trans hafter.1)

end

namespace Builder

/-- The node that an operator adds is in the scope that the pipeline is left with. A terminal
operator leaves the branches first, if it closes them. -/
theorem addOperator_scope (b : Builder) (pipeline : OpenPipeline) (segment : Segment) (line : Nat) :
    ∃ added : Node,
      (b.addOperator pipeline segment line).1.program.nodes = b.program.nodes.push added ∧
      added.kind = segment.kind ∧
      added.scope = (b.addOperator pipeline segment line).2.scope ∧
      if added.terminal && pipeline.closesAtTerminal then
        (b.addOperator pipeline segment line).2.scope = none ∧
          (b.addOperator pipeline segment line).2.closesAtTerminal = false
      else
        (b.addOperator pipeline segment line).2.scope = pipeline.scope ∧
          (b.addOperator pipeline segment line).2.closesAtTerminal = pipeline.closesAtTerminal := by
  refine ⟨_, rfl, rfl, rfl, ?_⟩
  unfold addOperator
  simp only
  split
  · exact ⟨rfl, rfl⟩
  · exact ⟨rfl, rfl⟩

/-- The nodes that plain segments add to an open pipeline. -/
theorem plain_foldl (line : Nat) (state : Builder × OpenPipeline) (segments : List (List Char))
    (hplain : ∀ source ∈ segments, Segment.isPlain source) (i : Nat) (node : Node)
    (hi : state.1.program.nodes.size ≤ i)
    (hnode : (segments.foldl (addSegment line) state).1.program.node? i = some node) :
    (segments.foldl (addSegment line) state).1.program.Plain state.1.program.nodes.size
      state.2.scope state.2.closesAtTerminal i node := by
  induction segments generalizing state with
  | nil => exact absurd (Program.lt_size_of_node? hnode) (Nat.not_lt.2 hi)
  | cons source rest ih =>
    obtain ⟨b, pipeline⟩ := state
    have hrest : ∀ s ∈ rest, Segment.isPlain s := fun s hs => hplain s (List.mem_cons_of_mem _ hs)
    have hfirst := hplain source List.mem_cons_self
    rw [List.foldl_cons] at hnode ⊢
    unfold Segment.isPlain at hfirst
    match hread : Segment.readChars source with
    | .error cause =>
      have hstep : addSegment line (b, pipeline) source =
          (b.warn line (.malformedSegment cause (String.ofList source)), pipeline) := by
        unfold addSegment
        simp only [hread]
      rw [hstep] at hnode ⊢
      exact ih _ hrest hi hnode
    | .ok segment =>
      rw [hread, Bool.and_eq_true, Option.isNone_iff_eq_none, Bool.not_eq_true'] at hfirst
      have hstep : addSegment line (b, pipeline) source = b.addOperator pipeline segment line := by
        unfold addSegment
        simp only [hread, hfirst.1, Option.isSome_none]
        rfl
      rw [hstep] at hnode ⊢
      obtain ⟨added, hnodes, hkind, hscope, hafter⟩ := addOperator_scope b pipeline segment line
      have hsize : (b.addOperator pipeline segment line).1.program.nodes.size =
          b.program.nodes.size + 1 := by rw [hnodes, Array.size_push]
      have hgrows := grows_foldl line (b.addOperator pipeline segment line) rest
      have hadded : (rest.foldl (addSegment line)
          (b.addOperator pipeline segment line)).1.program.node? b.program.nodes.size =
          some added := by
        rw [hgrows.old _ (by omega)]
        exact Program.node?_push_self hnodes
      rcases Nat.lt_or_eq_of_le hi with hlt | rfl
      · rw [Nat.lt_iff_add_one_le, ← hsize] at hlt
        have htail := ih (b.addOperator pipeline segment line) hrest hlt hnode
        rw [hsize] at htail
        exact htail.cons hadded hafter hscope hi
      · rw [hadded] at hnode
        rw [← Option.some.inj hnode]
        refine .head hadded ?_ hafter hscope
        rw [hkind]
        exact ⟨hfirst.1, hfirst.2, Segment.isSource_of_readChars hread⟩

end Builder

-- ============================================================================
-- Branch lines
-- ============================================================================

/-- A line that opens a branch on a decision, and has only plain segments behind it. -/
def Source.Line.opensBranch (line : Source.Line) (expects : Bool) : Bool :=
  match Statement.ofChars line.text.toList with
  | .branch (keyword :: segments) =>
    (match Segment.readChars keyword with
      | .ok segment => segment.kind.expects? == some expects
      | .error _ => false) && segments.all Segment.isPlain
  | _ => false

/-- A stream line that ends in a split. -/
def Source.Line.endsInSplit (line : Source.Line) : Bool :=
  match Statement.ofChars line.text.toList with
  | .stream _ _ segments =>
    match segments.getLast?.map Segment.readChars with
    | some (.ok segment) => segment.kind.isSplit
    | _ => false
  | _ => false

/-- What a branch line adds from `m` up to `n`: the branch, and then nodes in its scope. -/
structure Program.BranchLine (p : Program) (m n : Nat) (expects closes : Bool) : Prop where
  expects : p.expects? m = some expects
  nodes : ∀ i node, m < i → i < n → p.node? i = some node → p.Plain (m + 1) (some m) closes i node

/-- The nodes of a branch line stay what they are as the graph grows. -/
theorem Program.BranchLine.grow {p p' : Program} {on : Nat → Prop} {m n : Nat}
    {expects closes : Bool} (h : p.BranchLine m n expects closes) (hgrows : p.Grows p' on)
    (hn : n ≤ p.nodes.size) : p'.BranchLine m n expects closes := by
  have hterminal : ∀ j < n, p'.isTerminal j = p.isTerminal j := by
    intro j hj
    unfold isTerminal
    rw [hgrows.old j (by omega)]
  constructor
  · obtain ⟨node, hnode, -⟩ := Option.bind_eq_some_iff.1 h.expects
    rw [expects?_of_node? (hgrows.old m (lt_size_of_node? hnode))]
    exact h.expects
  · intro i node hi hin hnode
    rw [hgrows.old i (by omega)] at hnode
    obtain ⟨hexpects, hsplit, hsource, hscope⟩ := h.nodes i node hi hin hnode
    refine ⟨hexpects, hsplit, hsource, ?_⟩
    rcases hscope with hscope | ⟨hscope, hcloses, τ, ⟨hm, hτ, hfirst⟩, hnone, hτi⟩
    · exact .inl hscope
    · refine .inr ⟨hscope, hcloses, τ, ⟨hm, ?_, fun j hj hjτ => ?_⟩, ?_, hτi⟩
      · rw [hterminal τ (by omega)]
        exact hτ
      · rw [hterminal j (by omega)]
        exact hfirst j hj hjτ
      · rw [scope?_of_node? (hgrows.old τ (by omega))]
        exact hnone

namespace Builder

/-- Whether a line is balanced matters for its warnings only. -/
theorem addLine_eq (b : Builder) (line : Source.Line) :
    ∃ b' : Builder, b'.program.nodes = b.program.nodes ∧ b'.current = b.current ∧
      b.addLine line = b'.addStatement line.number line.text (.ofChars line.text.toList) := by
  unfold addLine
  simp only
  split
  · exact ⟨b, rfl, rfl, rfl⟩
  · exact ⟨b.warn line.number (.unbalanced line.text), rfl, rfl, rfl⟩

/-- The nodes of a branch and the plain segments behind it. -/
theorem branchLine_foldl (line : Nat) (b : Builder) (pipeline : OpenPipeline)
    {keyword : List Char} {segments : List (List Char)} {segment : Segment} {expects : Bool}
    (hread : Segment.readChars keyword = .ok segment)
    (hkeyword : segment.kind.expects? = some expects)
    (hplain : ∀ source ∈ segments, Segment.isPlain source) :
    ((keyword :: segments).foldl (addSegment line) (b, pipeline)).1.program.BranchLine
      b.program.nodes.size
      ((keyword :: segments).foldl (addSegment line) (b, pipeline)).1.program.nodes.size expects
      (decide (pipeline.anchor.getD pipeline.tail ≠ pipeline.tail)) := by
  have hstep : addSegment line (b, pipeline) keyword = b.addBranch pipeline segment line := by
    unfold addSegment
    simp only [hread, hkeyword, Option.isSome_some]
    rfl
  rw [List.foldl_cons, hstep]
  let added : Node :=
    { segment with
      id := b.program.nodes.size, line, terminal := isTerminalName segment.name,
      pipeline := pipeline.id, scope := none }
  have hnodes : (b.addBranch pipeline segment line).1.program.nodes =
      b.program.nodes.push added := by
    show (if _ then _ else _ : Program).nodes = _
    split <;> rfl
  have hsize : (b.addBranch pipeline segment line).1.program.nodes.size =
      b.program.nodes.size + 1 := by rw [hnodes, Array.size_push]
  have hgrows := grows_foldl line (b.addBranch pipeline segment line) segments
  constructor
  · unfold Program.expects?
    rw [hgrows.old _ (by omega), Program.node?_push_self hnodes]
    exact hkeyword
  · intro i node hi _ hnode
    have h := plain_foldl line (b.addBranch pipeline segment line) segments hplain i node
      (by omega) hnode
    rw [hsize] at h
    exact h

/-- A branch line keeps its pipeline open, and adds the branch with its scope. A terminal
operator closes the scope if the pipeline's end is not what the branch hangs off. -/
theorem addLine_branch {b : Builder} {line : Source.Line} {expects : Bool}
    (hline : line.opensBranch expects) {pipeline : OpenPipeline}
    (hcurrent : b.current = some pipeline) :
    (b.addLine line).program.BranchLine b.program.nodes.size (b.addLine line).program.nodes.size
      expects (decide (pipeline.anchor.getD pipeline.tail ≠ pipeline.tail)) ∧
    ∃ pipeline', (b.addLine line).current = some pipeline' := by
  obtain ⟨b', hnodes, hcurrent', heq⟩ := b.addLine_eq line
  rw [heq]
  unfold Source.Line.opensBranch at hline
  split at hline
  · next keyword segments hstatement =>
    rw [hstatement]
    rw [Bool.and_eq_true, List.all_eq_true] at hline
    obtain ⟨hkeyword, hplain⟩ := hline
    match hread : Segment.readChars keyword with
    | .error cause =>
      rw [hread] at hkeyword
      cases hkeyword
    | .ok segment =>
      rw [hread, beq_iff_eq] at hkeyword
      rw [hcurrent] at hcurrent'
      show (b'.extend line.number (keyword :: segments)).program.BranchLine _
        (b'.extend line.number (keyword :: segments)).program.nodes.size _ _ ∧
        ∃ pipeline', (b'.extend line.number (keyword :: segments)).current = some pipeline'
      unfold extend
      rw [hcurrent']
      refine ⟨?_, _, rfl⟩
      rw [← hnodes]
      exact branchLine_foldl line.number b' pipeline hread hkeyword hplain
  · cases hline

/-- A stream line that ends in a split leaves its pipeline open, with the split at the end of the
graph and in the scope that following nodes are in. -/
theorem addLine_stream {b : Builder} {line : Source.Line} (hline : line.endsInSplit) :
    ∃ pipeline s node, (b.addLine line).current = some pipeline ∧ b.program.nodes.size ≤ s ∧
      (b.addLine line).program.nodes.size = s + 1 ∧ (b.addLine line).program.node? s = some node ∧
      node.kind.isSplit = true ∧ node.scope = pipeline.scope := by
  obtain ⟨b', hnodes, -, heq⟩ := b.addLine_eq line
  rw [heq, ← hnodes]
  unfold Source.Line.endsInSplit at hline
  split at hline
  · next live literal segments hstatement =>
    rw [hstatement]
    split at hline
    · next segment hlast =>
      obtain ⟨last, hlast, hread⟩ := Option.map_eq_some_iff.1 hlast
      obtain ⟨front, rfl⟩ := List.getLast?_eq_some_iff.1 hlast
      obtain ⟨opened, hopened⟩ :
          ∃ opened, (b'.startStream live literal line.text line.number).current = some opened := by
        unfold startStream
        split
        · exact ⟨_, rfl⟩
        · exact ⟨_, rfl⟩
      have hnobranch : segment.kind.expects? = none := by
        match hk : segment.kind with
        | .lens _ _ => rfl
        | .finiteSource _ | .liveSource _ | .operator | .branch _ | .poolAccess _
        | .poolWrite _ =>
          rw [hk] at hline
          cases hline
      have hstep : ∀ state, addSegment line.number state last =
          state.1.addOperator state.2 segment line.number := by
        intro state
        unfold addSegment
        simp only [hread, hnobranch, Option.isSome_none]
        rfl
      let opening := b'.startStream live literal line.text line.number
      let state := front.foldl (addSegment line.number) (opening, opened)
      have hextend : opening.extend line.number (front ++ [last]) =
          { (state.1.addOperator state.2 segment line.number).1 with
            current := some (state.1.addOperator state.2 segment line.number).2 } := by
        unfold extend
        rw [hopened]
        simp only [List.foldl_append, List.foldl_cons, List.foldl_nil, hstep]
        rfl
      have hsize : b'.program.nodes.size ≤ state.1.program.nodes.size :=
        Nat.le_trans (grows_startStream b' live literal line.text line.number).size
          (grows_foldl line.number (opening, opened) front).size
      show ∃ pipeline s node, (opening.extend line.number (front ++ [last])).current = _ ∧
        b'.program.nodes.size ≤ s ∧
        (opening.extend line.number (front ++ [last])).program.nodes.size = s + 1 ∧
        (opening.extend line.number (front ++ [last])).program.node? s = some node ∧ _
      rw [hextend]
      exact ⟨_, state.1.program.nodes.size, _, rfl, hsize, Array.size_push _,
        Array.getElem?_push_size, hline, rfl⟩
    · cases hline
  · cases hline

end Builder

-- ============================================================================
-- Lines in a finished graph
-- ============================================================================

/-- The nodes from `lo` up to `hi` are those of the line with a number. -/
def Program.Spans (p : Program) (number lo hi : Nat) : Prop :=
  ∀ (i : Nat) node, p.node? i = some node → (node.line = number ↔ lo ≤ i ∧ i < hi)

/-- Where the nodes of a line stand, if no other line has its number. -/
theorem Builder.spans_foldl {b : Builder} (hb : b.program.nodes.size = 0)
    {before after : List Source.Line} {line : Source.Line}
    (hother : ∀ other ∈ before ++ after, other.number ≠ line.number) :
    ((before ++ line :: after).foldl addLine b).program.Spans line.number
      (before.foldl addLine b).program.nodes.size
      ((before ++ [line]).foldl addLine b).program.nodes.size := by
  have hbefore := grows_foldl_addLine b before
  have hline := grows_addLine (before.foldl addLine b) line
  have hafter := grows_foldl_addLine ((before.foldl addLine b).addLine line) after
  have hnot : ∀ lines : List Source.Line, lines ⊆ before ++ after →
      line.number ∉ lines.map (·.number) := by
    intro lines hlines hmem
    obtain ⟨other, hin, hnumber⟩ := List.mem_map.1 hmem
    exact hother other (hlines hin) hnumber
  rw [List.foldl_append, List.foldl_cons, List.foldl_append, List.foldl_cons, List.foldl_nil]
  intro i node hnode
  rcases Nat.lt_or_ge i (before.foldl addLine b).program.nodes.size with hlt | hge
  · rw [hafter.old i (Nat.lt_of_lt_of_le hlt hline.size), hline.old i hlt] at hnode
    have hin := hbefore.new i node (by omega) hnode
    refine ⟨fun h => ?_, fun h => by omega⟩
    rw [h] at hin
    exact absurd hin (hnot before (List.subset_append_left before after))
  · rcases Nat.lt_or_ge i ((before.foldl addLine b).addLine line).program.nodes.size with
      hlt' | hge'
    · rw [hafter.old i hlt'] at hnode
      exact ⟨fun _ => ⟨hge, hlt'⟩, fun _ => hline.new i node hge hnode⟩
    · have hin := hafter.new i node hge' hnode
      refine ⟨fun h => ?_, fun h => by omega⟩
      rw [h] at hin
      exact absurd hin (hnot after (List.subset_append_right before after))

/-- A stream line that ends in a split, and behind it a branch line on true and one on false:
the split is at `s`, the branches are at `s + 1` and `m`, and `n` is behind all of them. A terminal
operator closes the first branch only if the stream line left another one open. -/
structure Program.SplitLines (p : Program) (first yes no : Source.Line) (s m n : Nat) : Prop where
  split : p.isSplit s
  ordered : s < m
  first : ∃ lo, lo ≤ s ∧ p.Spans first.number lo (s + 1)
  onTrue : ∃ closes, p.BranchLine (s + 1) m true closes ∧ (closes = true → (p.scope? s).isSome)
  onFalse : ∃ closes, p.BranchLine m n false closes
  yes : p.Spans yes.number (s + 1) m
  no : p.Spans no.number m n

/-- Between the split and the second branch nothing decides anew. -/
theorem Program.SplitLines.keeps {p : Program} {first yes no : Source.Line} {s m n : Nat}
    (h : p.SplitLines first yes no s m n) (i : Nat) (hi : s < i) (him : i < m) :
    p.continues i ∧ p.isSplit i = false := by
  obtain ⟨closes, hyes, -⟩ := h.onTrue
  obtain ⟨closes', hno⟩ := h.onFalse
  rcases Nat.lt_or_eq_of_le hi with hlt | rfl
  · have hm : m < p.nodes.size := by
      obtain ⟨node, hnode, -⟩ := Option.bind_eq_some_iff.1 hno.expects
      exact lt_size_of_node? hnode
    have hnode : p.node? i = some p.nodes[i] := Array.getElem?_eq_getElem (by omega)
    have hplain := hyes.nodes i _ hlt him hnode
    unfold continues isSplit
    rw [hnode, Option.any_some, Option.any_some, hplain.source, hplain.split]
    exact ⟨rfl, rfl⟩
  · have hbranch := isBranch_of_expects? hyes.expects
    exact ⟨continues_of_isBranch hbranch, isSplit_of_isBranch hbranch⟩

/-- Lines of a source that open a split with its two branches are such lines of its graph. -/
theorem Program.parse_splitLines {source : String} {before rest : List Source.Line}
    {first yes no : Source.Line}
    (hlines : (Source.scan source).lines = before ++ first :: yes :: no :: rest)
    (hfirst : first.endsInSplit) (hyes : yes.opensBranch true) (hno : no.opensBranch false) :
    ∃ s m n, (parse source).SplitLines first yes no s m n := by
  obtain ⟨b, warnings, hempty, hlaid, hparse⟩ := parse_eq source
  have hb : b.program.nodes.size = 0 := by
    rw [hempty]
    rfl
  have hspans : ∀ before line after, (Source.scan source).lines = before ++ line :: after →
      (parse source).Spans line.number (before.foldl Builder.addLine b).program.nodes.size
        ((before ++ [line]).foldl Builder.addLine b).program.nodes.size := by
    intro before line after h i node hnode
    rw [hparse, h] at hnode
    unfold node? at hnode
    rw [(Builder.finish_nodes _).1] at hnode
    exact Builder.spans_foldl hb (Source.number_ne h) i node hnode
  -- The builder before the stream line, and after each of the three.
  let b₀ := before.foldl Builder.addLine b
  let b₁ := b₀.addLine first
  let b₂ := b₁.addLine yes
  let b₃ := b₂.addLine no
  obtain ⟨pipeline, s, node, hcurrent, hle, hsize, hnode, hsplit, hscope⟩ :
      ∃ pipeline s node, b₁.current = some pipeline ∧ b₀.program.nodes.size ≤ s ∧
        b₁.program.nodes.size = s + 1 ∧ b₁.program.node? s = some node ∧
        node.kind.isSplit = true ∧ node.scope = pipeline.scope := Builder.addLine_stream hfirst
  obtain ⟨hyesLine, pipeline', hcurrent'⟩ := Builder.addLine_branch hyes hcurrent
  obtain ⟨hnoLine, -⟩ := Builder.addLine_branch hno hcurrent'
  have hgrows : b₃.program.Grows (parse source) (fun _ => True) := by
    rw [hparse, hlines, List.foldl_append]
    exact ((Builder.grows_foldl_addLine b₃ rest).mono fun _ _ => trivial).trans
      (.of_nodes (Builder.finish_nodes _).1)
  have hgrows₂ : b₂.program.Grows (parse source) (fun _ => True) :=
    ((Builder.grows_addLine b₂ no).mono fun _ _ => trivial).trans hgrows
  have hgrows₁ : b₁.program.Grows (parse source) (fun _ => True) :=
    ((Builder.grows_addLine b₁ yes).mono fun _ _ => trivial).trans hgrows₂
  have hnode' : (parse source).node? s = some node := by
    rw [hgrows₁.old s (by omega)]
    exact hnode
  refine ⟨s, b₂.program.nodes.size, b₃.program.nodes.size, ?_⟩
  constructor
  case split =>
    unfold isSplit
    rw [hnode', Option.any_some]
    exact hsplit
  case ordered =>
    have := (Builder.grows_addLine b₁ yes).size
    exact Nat.lt_of_lt_of_le (by omega) this
  case first =>
    refine ⟨b₀.program.nodes.size, hle, ?_⟩
    have h := hspans before first (yes :: no :: rest) hlines
    rw [List.foldl_append] at h
    rw [← hsize]
    exact h
  case onTrue =>
    rw [← hsize]
    refine ⟨_, hyesLine.grow hgrows₂ (Nat.le_refl _), fun hcloses => ?_⟩
    -- Outside of all branches the pipeline hangs its next branch off its end.
    obtain ⟨anchors, -, hends⟩ := (hlaid.foldl before).addLine first
    match hopen : pipeline.scope with
    | some t =>
      unfold scope?
      rw [hnode', Option.bind_some, hscope, hopen]
      rfl
    | none =>
      rw [((hends pipeline hcurrent).outside hopen).1, Option.getD_none] at hcloses
      simp at hcloses
  case onFalse => exact ⟨_, hnoLine.grow hgrows (Nat.le_refl _)⟩
  case yes =>
    have h := hspans (before ++ [first]) yes (no :: rest) (by rw [hlines, List.append_assoc]; rfl)
    rw [List.append_assoc, List.foldl_append, List.foldl_append] at h
    rw [← hsize]
    exact h
  case no =>
    have h := hspans (before ++ [first, yes]) no rest (by rw [hlines, List.append_assoc]; rfl)
    rw [List.append_assoc, List.foldl_append, List.foldl_append] at h
    exact h

end Sluice
