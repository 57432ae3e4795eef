/-
  Sluice.Proofs.Program.Pools

  The pool table of a program. A line may declare a pool, and nodes refer to pools: by a write, or
  by a subscription that starts at them. Building notes both as the lines come. Once all lines are
  read, pools that were referred to and never declared are implied, each with a warning on the line
  of the first reference, and every write is connected to the subscriptions on its pool.

  The invariant of building says that subscriptions and references are those of the nodes, in
  order, and that the table holds what lines declared so far. All that the finished table shows is
  read off it: as nodes stand in the order of their lines, the first reference is on the least.
-/

import Mathlib.Order.Bounds.Defs
import Sluice.Proofs.Program.Append
import Sluice.Proofs.Program.Lines
import Sluice.Proofs.Program.Wiring
import Sluice.Proofs.Record

namespace Sluice

-- ============================================================================
-- The table
-- ============================================================================

/-- A line of the form `let NAME = <|> VALUE`, with a name that is no keyword. -/
def Source.Line.Declares (line : Source.Line) (pool : String) : Prop :=
  ∃ rest left right literal,
    Statement.keywordRest? "let" line.text.toList = some rest ∧
    Text.splitOnce '=' rest = some (left, right) ∧
    Statement.after? "<|>" (Text.trimChars right) = some literal ∧
    Text.trimChars left = pool.toList ∧
    Segment.isIdentifier pool.toList = true ∧ pool.toList ∉ Statement.reserved

/-- The pools that a source text declares. -/
def Source.Declares (source : String) (pool : String) : Prop :=
  ∃ line ∈ (Source.scan source).lines, line.Declares pool

namespace Program

/-- The connections from pool writes to subscriptions, in order. -/
def poolReads (p : Program) : List (NodeId × NodeId) :=
  p.connections.toList.filterMap fun c =>
    if c.kind = .poolRead then some (c.source, c.target) else none

/-- A pool is referred to on a line: a node there writes it, or a subscription on it starts
there. -/
def RefersOn (p : Program) (pool : String) (line : Nat) : Prop :=
  (∃ i node, p.node? i = some node ∧ node.kind = .poolWrite pool ∧ node.line = line) ∨
    ∃ s ∈ p.subscriptions, s.pool = pool ∧ s.line = line

/-- The pool table of a graph whose source declares certain pools. -/
structure PoolTable (p : Program) (declared : String → Prop) : Prop where
  named : ∀ e ∈ p.pools, e.2.name = e.1
  /-- The table has the pools that are declared or referred to, and no others. -/
  listed : ∀ pool, p.pools.contains pool = true ↔ declared pool ∨ ∃ line, p.RefersOn pool line
  /-- Implied are those that are referred to and never declared. -/
  implied : ∀ pool, (∃ d, p.pools.get? pool = some d ∧ d.implied = true) ↔
    (∃ line, p.RefersOn pool line) ∧ ¬ declared pool
  /-- Each of them has one warning, on the line of the first reference to it. -/
  warned : ∀ pool d, p.pools.get? pool = some d → d.implied = true →
    IsLeast {line | p.RefersOn pool line} d.line ∧
      p.warnings.filter (·.problem = .undeclaredPool pool) = [⟨d.line, .undeclaredPool pool⟩]
  /-- No other warning is of a reference. -/
  unwarned : ∀ w ∈ p.warnings, w.problem.kind = "UndeclaredPoolReference" →
    ∃ pool d, w.problem = .undeclaredPool pool ∧ p.pools.get? pool = some d ∧ d.implied = true
  /-- Pool writes are connected to the subscriptions on their pools, and nothing else is. -/
  fed : ∀ source target, (source, target) ∈ p.poolReads ↔ ∃ node s, p.node? source = some node ∧
    node.kind = .poolWrite s.pool ∧ s ∈ p.subscriptions ∧ s.root = target
  fedOnce : p.poolReads.Nodup

end Program

-- ============================================================================
-- Declarations
-- ============================================================================

namespace Statement

theorem of_keywordRest? {keyword : String} {cs rest : List Char}
    (h : keywordRest? keyword cs = some rest) : keyword.toList <+: cs := by
  unfold keywordRest? after? at h
  split at h
  · next hafter =>
    split at hafter
    · next hlead => exact List.isPrefixOf_iff_prefix.1 hlead
    · cases hafter
  · cases h

/-- A line that starts with `let` starts with no other keyword. -/
theorem ofChars_of_let {cs rest : List Char} (h : keywordRest? "let" cs = some rest) :
    ofChars cs = ofPool rest := by
  obtain ⟨more, rfl⟩ : "let".toList <+: cs := of_keywordRest? h
  have himport : keywordRest? "import" ("let".toList ++ more) = none := rfl
  have huse : keywordRest? "use" ("let".toList ++ more) = none := rfl
  have hfn : keywordRest? "fn" ("let".toList ++ more) = none := rfl
  unfold ofChars
  rw [himport, huse, hfn, h]
  rfl

theorem ofPool_eq_pool {rest : List Char} {pool initial : String}
    (h : ofPool rest = .pool pool initial) :
    ∃ left right literal, Text.splitOnce '=' rest = some (left, right) ∧
      after? "<|>" (Text.trimChars right) = some literal ∧ Text.trimChars left = pool.toList ∧
      Segment.isIdentifier pool.toList = true ∧ pool.toList ∉ reserved := by
  unfold ofPool at h
  simp only at h
  split at h
  · cases h
  · next left right hsplit =>
    split at h
    · cases h
    · next literal hmarker =>
      split at h
      · next hname =>
        cases h
        rw [String.toList_ofList]
        rw [Bool.and_eq_true, Bool.not_eq_true', List.contains_eq_mem, decide_eq_false_iff_not]
          at hname
        exact ⟨left, right, literal, hsplit, hmarker, rfl, hname⟩
      · cases h

/-- A statement that declares no pool, and does not report a reference to one. -/
def IsOther : Statement → Prop
  | .pool .. => False
  | .malformed problem => problem.kind ≠ "UndeclaredPoolReference"
  | _ => True

theorem isOther_ofImport (rest : List Char) : (ofImport rest).IsOther := by
  unfold ofImport
  simp only
  split
  · trivial
  · split
    · trivial
    · simp [IsOther, Problem.kind]
  · simp [IsOther, Problem.kind]

theorem isOther_ofPlain (cs : List Char) : (ofPlain cs).IsOther := by
  unfold ofPlain
  split
  · trivial
  · split
    · unfold ofSubscription
      simp only
      split
      · simp [IsOther, Problem.kind]
      · trivial
    · simp [IsOther, Problem.kind]

theorem isOther_ofStream (live : Bool) (rest : List Char) : (ofStream live rest).IsOther := by
  unfold ofStream
  split
  · trivial
  · trivial

theorem isOther_ofChars {cs : List Char} (h : keywordRest? "let" cs = none) :
    (ofChars cs).IsOther := by
  unfold ofChars
  split
  · exact isOther_ofImport _
  · split
    · trivial
    · rw [h]
      simp only
      split
      · exact isOther_ofStream _ _
      · exact isOther_ofStream _ _
      · trivial
      · exact isOther_ofPlain _

/-- A line declares a pool exactly if it says so. -/
theorem ofChars_eq_pool_iff {line : Source.Line} {pool : String} :
    (∃ initial, ofChars line.text.toList = .pool pool initial) ↔ line.Declares pool := by
  constructor
  · rintro ⟨initial, hpool⟩
    match hlet : keywordRest? "let" line.text.toList with
    | none =>
      have hother := isOther_ofChars hlet
      rw [hpool] at hother
      exact hother.elim
    | some rest =>
      rw [ofChars_of_let hlet] at hpool
      obtain ⟨left, right, literal, hform⟩ := ofPool_eq_pool hpool
      exact ⟨rest, left, right, literal, hlet, hform⟩
  · rintro ⟨rest, left, right, literal, hlet, hsplit, hmarker, hname, hidentifier, hreserved⟩
    have hword : (Segment.isIdentifier pool.toList && !reserved.contains pool.toList) = true := by
      rw [hidentifier, List.contains_eq_mem, decide_eq_false hreserved]
      rfl
    rw [ofChars_of_let hlet]
    unfold ofPool
    simp only [hsplit, hmarker, hname, hword, if_true, String.ofList_toList]
    exact ⟨_, rfl⟩

/-- No line reports a reference by itself. -/
theorem kind_of_malformed {cs : List Char} {problem : Problem}
    (h : ofChars cs = .malformed problem) : problem.kind ≠ "UndeclaredPoolReference" := by
  match hlet : keywordRest? "let" cs with
  | none =>
    have hother := isOther_ofChars hlet
    rw [h] at hother
    exact hother
  | some rest =>
    rw [ofChars_of_let hlet] at h
    unfold ofPool at h
    simp only at h
    split at h
    · cases h
      simp [Problem.kind]
    · split at h
      · cases h
        simp [Problem.kind]
      · split at h
        · cases h
        · cases h
          simp [Problem.kind]

end Statement

-- ============================================================================
-- Notes
-- ============================================================================

/-- The pool that a kind refers to. -/
def NodeKind.pool? : NodeKind → Option String
  | poolAccess pool | poolWrite pool => some pool
  | _ => none

namespace Node

/-- The pool that a node refers to, with the line on which it does. -/
def reference? (node : Node) : Option (String × Nat) :=
  node.kind.pool?.map fun pool => (pool, node.line)

/-- The subscription that starts at a node. -/
def subscription? (node : Node) : Option Subscription :=
  match node.kind with
  | .poolAccess pool => some ⟨pool, node.pipeline, node.id, node.line⟩
  | _ => none

theorem reference?_eq_some_iff {node : Node} {pool : String} {line : Nat} :
    node.reference? = some (pool, line) ↔
      (node.kind = .poolWrite pool ∨ node.kind = .poolAccess pool) ∧ node.line = line := by
  unfold reference?
  cases node.kind <;> simp [NodeKind.pool?]

theorem subscription?_eq_some_iff {node : Node} {s : Subscription} :
    node.subscription? = some s ↔ node.kind = .poolAccess s.pool ∧ s.pipeline = node.pipeline ∧
      s.root = node.id ∧ s.line = node.line := by
  obtain ⟨pool, pipeline, root, line⟩ := s
  unfold subscription?
  cases node.kind <;> simp [eq_comm]

end Node

namespace Builder

/-- What a builder has noted of the pools, when `declared` are those that lines declared so far:
these are in the table, and references and subscriptions are those of the nodes, in order. -/
structure Noted (b : Builder) (declared : String → Prop) : Prop where
  named : ∀ e ∈ b.program.pools, e.2.name = e.1 ∧ e.2.implied = false
  listed : ∀ pool, b.program.pools.contains pool = true ↔ declared pool
  subscriptions : b.program.subscriptions = b.program.nodes.toList.filterMap Node.subscription?
  references : b.references = b.program.nodes.toList.filterMap Node.reference?
  quiet : ∀ w ∈ b.program.warnings, w.problem.kind ≠ "UndeclaredPoolReference"

namespace Noted

variable {b b' : Builder} {declared : String → Prop}

/-- One node more, with its reference and the subscription that starts at it. -/
theorem push (h : b.Noted declared) {node : Node}
    (hnodes : b'.program.nodes = b.program.nodes.push node)
    (hpools : b'.program.pools = b.program.pools)
    (hwarnings : b'.program.warnings = b.program.warnings)
    (hsubscriptions : b'.program.subscriptions =
      b.program.subscriptions ++ node.subscription?.toList)
    (hreferences : b'.references = b.references ++ node.reference?.toList) :
    b'.Noted declared where
  named := by
    rw [hpools]
    exact h.named
  listed := by
    rw [hpools]
    exact h.listed
  subscriptions := by
    rw [hsubscriptions, hnodes, h.subscriptions, Array.toList_push, List.filterMap_append]
    cases hs : node.subscription? <;> simp [hs]
  references := by
    rw [hreferences, hnodes, h.references, Array.toList_push, List.filterMap_append]
    cases hr : node.reference? <;> simp [hr]
  quiet := by
    rw [hwarnings]
    exact h.quiet

theorem warn (h : b.Noted declared) (line : Nat) {problem : Problem}
    (hproblem : problem.kind ≠ "UndeclaredPoolReference") :
    (b.warn line problem).Noted declared where
  named := h.named
  listed := h.listed
  subscriptions := h.subscriptions
  references := h.references
  quiet w hw := by
    rcases List.mem_append.1 hw with hold | hnew
    · exact h.quiet w hold
    · rw [List.mem_singleton.1 hnew]
      exact hproblem

theorem addBranch (h : b.Noted declared) (pipeline : OpenPipeline) {segment : Segment}
    (hsegment : segment.kind.expects?.isSome = true) (line : Nat) :
    (b.addBranch pipeline segment line).1.Noted declared := by
  obtain ⟨kind, name, arguments, raw⟩ := segment
  cases kind with
  | branch expects =>
    unfold Builder.addBranch
    simp only
    split
    · exact h.push rfl rfl rfl (List.append_nil _).symm (List.append_nil _).symm
    · exact h.push rfl rfl rfl (List.append_nil _).symm (List.append_nil _).symm
  | finiteSource _ | liveSource _ | operator | lens _ _ | poolAccess _ | poolWrite _ =>
    cases hsegment

theorem addOperator (h : b.Noted declared) (pipeline : OpenPipeline) {segment : Segment}
    (hsource : segment.kind.isSource = false) (line : Nat) :
    (b.addOperator pipeline segment line).1.Noted declared := by
  obtain ⟨kind, name, arguments, raw⟩ := segment
  cases kind with
  | poolWrite pool => exact h.push rfl rfl rfl (List.append_nil _).symm rfl
  | operator | lens _ _ | branch _ =>
    exact h.push rfl rfl rfl (List.append_nil _).symm (List.append_nil _).symm
  | finiteSource _ | liveSource _ | poolAccess _ => cases hsource

theorem addSegment {state : Builder × OpenPipeline} (h : state.1.Noted declared) (line : Nat)
    (source : List Char) : (Builder.addSegment line state source).1.Noted declared := by
  unfold Builder.addSegment
  simp only
  split
  · exact h.warn line (by simp [Problem.kind])
  · next segment hread =>
    split
    · next hbranch => exact h.addBranch state.2 hbranch line
    · exact h.addOperator state.2 (Segment.isSource_of_readChars hread) line

theorem extend (h : b.Noted declared) (line : Nat) (segments : List (List Char)) :
    (b.extend line segments).Noted declared := by
  have hfold : ∀ state : Builder × OpenPipeline, state.1.Noted declared →
      (segments.foldl (Builder.addSegment line) state).1.Noted declared := by
    induction segments with
    | nil => exact fun _ hstate => hstate
    | cons source rest ih => exact fun _ hstate => ih _ (hstate.addSegment line source)
  unfold Builder.extend
  split
  · exact h.warn line (by simp [Problem.kind])
  · next pipeline _ =>
    have hfolded := hfold (b, pipeline) h
    exact ⟨hfolded.named, hfolded.listed, hfolded.subscriptions, hfolded.references,
      hfolded.quiet⟩

theorem startStream (h : b.Noted declared) (live : Bool) (literal text : String) (line : Nat) :
    (b.startStream live literal text line).Noted declared := by
  unfold Builder.startStream
  split
  · exact h.push rfl rfl rfl (List.append_nil _).symm (List.append_nil _).symm
  · exact h.push rfl rfl rfl (List.append_nil _).symm (List.append_nil _).symm

theorem startSubscription (h : b.Noted declared) (pool text : String) (line : Nat) :
    (b.startSubscription pool text line).Noted declared :=
  h.push rfl rfl rfl rfl rfl

theorem declare (h : b.Noted declared) (name initial : String) (line : Nat) :
    (b.declare name initial line).Noted fun pool => declared pool ∨ pool = name := by
  have hwarned : (if b.program.pools.contains name then b.warn line (.duplicatePool name)
      else b).Noted declared := by
    split
    · exact h.warn line (by simp [Problem.kind])
    · exact h
  constructor
  case named =>
    intro e he
    rcases Record.mem_set he with rfl | hold
    · exact ⟨rfl, rfl⟩
    · exact hwarned.named e hold
  case listed =>
    intro pool
    show (Record.set _ _ _).contains pool = true ↔ _
    rw [Record.contains_set, Bool.or_eq_true, decide_eq_true_iff, hwarned.listed, or_comm]
  case subscriptions => exact hwarned.subscriptions
  case references => exact hwarned.references
  case quiet => exact hwarned.quiet

theorem congr {declared' : String → Prop} (h : b.Noted declared)
    (hiff : ∀ pool, declared pool ↔ declared' pool) : b.Noted declared' :=
  ⟨h.named, fun pool => (h.listed pool).trans (hiff pool), h.subscriptions, h.references, h.quiet⟩

theorem addStatement (h : b.Noted declared) (line : Nat) (text : String) {statement : Statement}
    (hmalformed : ∀ problem, statement = .malformed problem →
      problem.kind ≠ "UndeclaredPoolReference") :
    (b.addStatement line text statement).Noted fun pool =>
      declared pool ∨ ∃ initial, statement = .pool pool initial := by
  have hclosed : b.close.Noted declared :=
    ⟨h.named, h.listed, h.subscriptions, h.references, h.quiet⟩
  cases statement with
  | pool name initial =>
    refine (hclosed.declare name initial line).congr fun pool => or_congr_right ?_
    constructor
    · rintro rfl
      exact ⟨initial, rfl⟩
    · rintro ⟨_, heq⟩
      cases heq
      rfl
  | importLibrary library localName =>
    have hadded : (b.addStatement line text (.importLibrary library localName)).Noted declared :=
      ⟨h.named, h.listed, h.subscriptions, h.references, h.quiet⟩
    exact hadded.congr fun pool => by simp
  | function name =>
    have hwarned : (b.close.warn line (.unsupportedFunction name)).Noted declared :=
      hclosed.warn line (by simp [Problem.kind])
    have hadded : (b.addStatement line text (.function name)).Noted declared :=
      ⟨hwarned.named, hwarned.listed, hwarned.subscriptions, hwarned.references, hwarned.quiet⟩
    exact hadded.congr fun pool => by simp
  | stream live literal segments =>
    exact ((h.startStream live literal text line).extend line segments).congr fun pool => by simp
  | continuation segments =>
    have hleft : Noted { b with current := b.current.map OpenPipeline.leaveBranches } declared :=
      ⟨h.named, h.listed, h.subscriptions, h.references, h.quiet⟩
    exact (hleft.extend line segments).congr fun pool => by simp
  | branch segments => exact (h.extend line segments).congr fun pool => by simp
  | subscription pool segments =>
    exact ((h.startSubscription pool text line).extend line segments).congr fun pool => by simp
  | malformed problem =>
    exact (hclosed.warn line (hmalformed problem rfl)).congr fun pool => by simp

theorem addLine (h : b.Noted declared) (line : Source.Line) :
    (b.addLine line).Noted fun pool => declared pool ∨ line.Declares pool := by
  have hwarned : (if Source.isBalanced line.text.toList then b
      else b.warn line.number (.unbalanced line.text)).Noted declared := by
    split
    · exact h
    · exact h.warn _ (by simp [Problem.kind])
  refine (hwarned.addStatement line.number line.text fun _ => Statement.kind_of_malformed).congr ?_
  exact fun pool => or_congr_right Statement.ofChars_eq_pool_iff

theorem foldl (h : b.Noted declared) (lines : List Source.Line) :
    (lines.foldl Builder.addLine b).Noted fun pool =>
      declared pool ∨ ∃ line ∈ lines, line.Declares pool := by
  induction lines generalizing b declared with
  | nil => exact h.congr fun pool => by simp
  | cons line rest ih =>
    refine (ih (h.addLine line)).congr fun pool => ?_
    simp only [List.mem_cons, exists_eq_or_imp, or_assoc]

end Noted

end Builder

-- ============================================================================
-- Lines in order
-- ============================================================================

/-- Nodes stand in the order of their lines. -/
def Program.InOrder (p : Program) : Prop :=
  ∀ i j a b, i ≤ j → p.node? i = some a → p.node? j = some b → a.line ≤ b.line

theorem Program.InOrder.pairwise {p : Program} (h : p.InOrder) :
    p.nodes.toList.Pairwise fun a b => a.line ≤ b.line := by
  refine List.pairwise_iff_getElem.2 fun i j hi hj hij => ?_
  exact h i j _ _ (Nat.le_of_lt hij) (Array.getElem?_eq_getElem hi) (Array.getElem?_eq_getElem hj)

/-- Lines that are numbered in increasing order add nodes behind those of earlier lines. -/
theorem Builder.inOrder_foldl {b : Builder} {lines : List Source.Line} (h : b.program.InOrder)
    (hlines : (lines.map (·.number)).Pairwise (· < ·))
    (hbefore : ∀ i node, b.program.node? i = some node → ∀ line ∈ lines, node.line ≤ line.number) :
    (lines.foldl addLine b).program.InOrder := by
  induction lines generalizing b with
  | nil => exact h
  | cons line rest ih =>
    obtain ⟨hfirst, hrest⟩ := List.pairwise_cons.1 hlines
    have hgrows := grows_addLine b line
    -- What was there before is on an earlier line, and all the rest on this one.
    have hcases : ∀ i node, (b.addLine line).program.node? i = some node →
        (i < b.program.nodes.size ∧ b.program.node? i = some node) ∨
          (b.program.nodes.size ≤ i ∧ node.line = line.number) := by
      intro i node hnode
      rcases Nat.lt_or_ge i b.program.nodes.size with hlt | hge
      · exact .inl ⟨hlt, hgrows.old i hlt ▸ hnode⟩
      · exact .inr ⟨hge, hgrows.new i node hge hnode⟩
    refine ih (fun i j m n hij hm hn => ?_) hrest fun i node hnode later hlater => ?_
    · rcases hcases i m hm with ⟨-, hm⟩ | ⟨hi, hm⟩
      · rcases hcases j n hn with ⟨-, hn⟩ | ⟨-, hn⟩
        · exact h i j m n hij hm hn
        · rw [hn]
          exact hbefore i m hm line List.mem_cons_self
      · rcases hcases j n hn with ⟨hj, -⟩ | ⟨-, hn⟩
        · exact absurd (Nat.lt_of_le_of_lt hij hj) (Nat.not_lt.2 hi)
        · rw [hm, hn]
    · rcases hcases i node hnode with ⟨-, hold⟩ | ⟨-, hnew⟩
      · exact hbefore i node hold later (List.mem_cons_of_mem _ hlater)
      · rw [hnew]
        exact Nat.le_of_lt (hfirst _ (List.mem_map_of_mem hlater))

-- ============================================================================
-- The end of building
-- ============================================================================

namespace Builder

/-- Implying pools changes pools and warnings only. -/
theorem implyPools_eq (p : Program) (references : List (String × Nat)) :
    ∃ pools warnings, implyPools p references = { p with pools, warnings } := by
  induction references generalizing p with
  | nil => exact ⟨p.pools, p.warnings, rfl⟩
  | cons reference rest ih =>
    unfold implyPools
    split
    · exact ih p
    · exact ih ((p.warn _ _).declare _)

/-- Feeding subscriptions changes connections only. -/
theorem feed_eq (p : Program) (edges : List (Nat × Nat)) :
    ∃ connections, edges.foldl (fun p (source, target) => p.connect source target .poolRead) p =
      { p with connections } := by
  induction edges generalizing p with
  | nil => exact ⟨p.connections, rfl⟩
  | cons edge rest ih => exact ih (p.connect edge.1 edge.2 .poolRead)

/-- Pools and warnings of a finished graph are complete once pools are implied. -/
theorem finish_eq (b : Builder) :
    b.finish.pools = (implyPools b.program b.references).pools ∧
      b.finish.warnings = (implyPools b.program b.references).warnings := by
  obtain ⟨connections, hfeed⟩ := feed_eq (implyPools b.program b.references)
    (feeds (implyPools b.program b.references))
  rw [finish, hfeed]
  exact ⟨rfl, rfl⟩

/-- A pool of the finished table is declared, or implied by the first reference to it. -/
theorem get?_implyPools (p : Program) (references : List (String × Nat)) (pool : String) :
    (implyPools p references).pools.get? pool =
      (p.pools.get? pool).or ((references.find? (·.1 = pool)).map fun r =>
        ⟨pool, "null", r.2, true⟩) := by
  induction references generalizing p with
  | nil => simp [implyPools]
  | cons reference rest ih =>
    obtain ⟨name, line⟩ := reference
    unfold implyPools
    by_cases hname : name = pool
    · subst hname
      rw [List.find?_cons_of_pos (by simp)]
      split
      · next hcontains =>
        obtain ⟨d, hd⟩ := Option.isSome_iff_exists.1 hcontains
        rw [ih, hd]
        rfl
      · next hmissing =>
        have hnone : p.pools.get? name = none := Option.not_isSome_iff_eq_none.1 hmissing
        rw [ih, hnone, Program.declare, Record.get?_set_self]
        rfl
    · rw [List.find?_cons_of_neg (by simpa using hname)]
      split
      · exact ih p
      · rw [ih, Program.declare, Record.get?_set_of_ne (Ne.symm hname)]
        rfl

/-- Implying pools warns of each of them once, on the line of the first reference to it. -/
theorem warnings_implyPools (p : Program) (references : List (String × Nat)) (pool : String) :
    (implyPools p references).warnings.filter (·.problem = .undeclaredPool pool) =
      p.warnings.filter (·.problem = .undeclaredPool pool) ++
        if p.pools.contains pool then []
        else ((references.find? (·.1 = pool)).map fun r =>
          (⟨r.2, .undeclaredPool pool⟩ : Warning)).toList := by
  induction references generalizing p with
  | nil => simp [implyPools]
  | cons reference rest ih =>
    obtain ⟨name, line⟩ := reference
    unfold implyPools
    by_cases hname : name = pool
    · subst hname
      rw [List.find?_cons_of_pos (by simp)]
      split
      · next hcontains => rw [ih, if_pos hcontains]
      · next hmissing =>
        have hmade : ((p.warn line (.undeclaredPool name)).declare
            ⟨name, "null", line, true⟩).pools.contains name = true := by
          rw [Program.declare, Record.contains_set, decide_eq_true rfl, Bool.true_or]
        rw [ih, if_pos hmade, List.append_nil]
        simp [Program.declare, Program.warn]
    · rw [List.find?_cons_of_neg (by simpa using hname)]
      split
      · exact ih p
      · have hother : ((p.warn line (.undeclaredPool name)).declare
            ⟨name, "null", line, true⟩).pools.contains pool = p.pools.contains pool := by
          rw [Program.declare, Record.contains_set, decide_eq_false (Ne.symm hname), Bool.false_or]
          rfl
        rw [ih, hother]
        simp [Program.declare, Program.warn, hname]

theorem mem_pools_implyPools {p : Program} (references : List (String × Nat))
    (h : ∀ e ∈ p.pools, e.2.name = e.1) :
    ∀ e ∈ (implyPools p references).pools, e.2.name = e.1 := by
  induction references generalizing p with
  | nil => exact h
  | cons reference rest ih =>
    unfold implyPools
    split
    · exact ih h
    · refine ih fun e he => ?_
      rcases Record.mem_set he with rfl | hold
      · rfl
      · exact h e hold

/-- Implying pools adds no other warnings. -/
theorem mem_warnings_implyPools {p : Program} {references : List (String × Nat)} {w : Warning}
    (h : w ∈ (implyPools p references).warnings) :
    w ∈ p.warnings ∨ ∃ pool, w.problem = .undeclaredPool pool := by
  induction references generalizing p with
  | nil => exact .inl h
  | cons reference rest ih =>
    unfold implyPools at h
    split at h
    · exact ih h
    · rcases ih h with hold | hpool
      · rcases List.mem_append.1 hold with hold | hnew
        · exact .inl hold
        · rw [List.mem_singleton.1 hnew]
          exact .inr ⟨_, rfl⟩
      · exact .inr hpool

end Builder

-- ============================================================================
-- Feeds
-- ============================================================================

namespace Program

theorem poolReads_feed (p : Program) (edges : List (Nat × Nat)) :
    (edges.foldl (fun p (source, target) => p.connect source target .poolRead) p).poolReads =
      p.poolReads ++ edges := by
  induction edges generalizing p with
  | nil => exact (List.append_nil _).symm
  | cons edge rest ih =>
    have hconnect : (p.connect edge.1 edge.2 .poolRead).poolReads = p.poolReads ++ [edge] := by
      unfold poolReads connect
      rw [Array.toList_push, List.filterMap_append]
      rfl
    rw [List.foldl_cons, ih, hconnect, List.append_assoc]
    rfl

theorem Piped.poolReads_eq {p : Program} (h : p.Piped) : p.poolReads = [] :=
  List.filterMap_eq_nil_iff.2 fun c hc => if_neg (by rw [h c hc]; decide)

theorem mem_nodes_iff {p : Program} {node : Node} :
    node ∈ p.nodes.toList ↔ ∃ i, p.node? i = some node := by
  unfold node?
  rw [Array.mem_toList_iff, Array.mem_iff_getElem?]

/-- No two nodes have the same id. -/
theorem Indexed.pairwise {p : Program} (h : p.Indexed) :
    p.nodes.toList.Pairwise fun a b => a.id ≠ b.id := by
  refine List.pairwise_iff_getElem.2 fun i j hi hj hij => ?_
  have hid : ∀ k (hk : k < p.nodes.toList.length), p.nodes.toList[k].id = k :=
    fun k hk => h k _ (Array.getElem?_eq_getElem hk)
  rw [hid i hi, hid j hj]
  exact Nat.ne_of_lt hij

/-- What a pool write feeds. -/
theorem mem_feeds_iff {p : Program} (hp : p.Indexed) {source target : NodeId} :
    (source, target) ∈ Builder.feeds p ↔ ∃ node s, p.node? source = some node ∧
      node.kind = .poolWrite s.pool ∧ s ∈ p.subscriptions ∧ s.root = target := by
  constructor
  · intro h
    obtain ⟨node, hmem, hedge⟩ := List.mem_flatMap.1 h
    obtain ⟨i, hnode⟩ := mem_nodes_iff.1 hmem
    split at hedge
    · next pool hkind =>
      obtain ⟨s, hs, heq⟩ := List.mem_map.1 hedge
      obtain ⟨hmem', hpool⟩ := List.mem_filter.1 hs
      obtain rfl := beq_iff_eq.1 hpool
      cases heq
      exact ⟨node, s, (hp i node hnode).symm ▸ hnode, hkind, hmem', rfl⟩
    · cases hedge
  · rintro ⟨node, s, hnode, hkind, hs, rfl⟩
    exact Builder.mem_feeds hp hnode hkind (List.mem_filter.2 ⟨hs, beq_self_eq_true _⟩)

/-- Each pool write feeds each subscription once. -/
theorem nodup_feeds {p : Program} (hp : p.Indexed)
    (hsubscriptions : p.subscriptions = p.nodes.toList.filterMap Node.subscription?) :
    (Builder.feeds p).Nodup := by
  have hroots : p.subscriptions.Pairwise fun a b => a.root ≠ b.root := by
    rw [hsubscriptions]
    refine hp.pairwise.filterMap _ fun a b hne s hs t ht => ?_
    rw [(Node.subscription?_eq_some_iff.1 hs).2.2.1, (Node.subscription?_eq_some_iff.1 ht).2.2.1]
    exact hne
  unfold Builder.feeds
  refine List.nodup_flatMap.2 ⟨fun node _ => ?_, hp.pairwise.imp fun hne => ?_⟩
  · split
    · refine List.Pairwise.map _ (fun a b hab heq => hab ?_) (hroots.filter _)
      exact (Prod.mk.inj heq).2
    · exact .nil
  · intro e he he'
    simp only at he he'
    split at he
    · obtain ⟨s, -, rfl⟩ := List.mem_map.1 he
      split at he'
      · obtain ⟨t, -, heq⟩ := List.mem_map.1 he'
        exact hne (Prod.mk.inj heq).1.symm
      · cases he'
    · cases he

end Program

-- ============================================================================
-- The table of a source
-- ============================================================================

namespace Program

/-- The references of nodes are those that the graph shows. -/
theorem mem_references_iff {p : Program}
    (hsubscriptions : p.subscriptions = p.nodes.toList.filterMap Node.subscription?)
    {pool : String} {line : Nat} :
    (pool, line) ∈ p.nodes.toList.filterMap Node.reference? ↔ p.RefersOn pool line := by
  unfold RefersOn
  rw [hsubscriptions, List.mem_filterMap]
  constructor
  · rintro ⟨node, hmem, href⟩
    obtain ⟨hwrite | haccess, rfl⟩ := Node.reference?_eq_some_iff.1 href
    · obtain ⟨i, hnode⟩ := mem_nodes_iff.1 hmem
      exact .inl ⟨i, node, hnode, hwrite, rfl⟩
    · refine .inr ⟨⟨pool, node.pipeline, node.id, node.line⟩, ?_, rfl, rfl⟩
      exact List.mem_filterMap.2
        ⟨node, hmem, Node.subscription?_eq_some_iff.2 ⟨haccess, rfl, rfl, rfl⟩⟩
  · rintro (⟨i, node, hnode, hkind, rfl⟩ | ⟨s, hs, rfl, rfl⟩)
    · exact ⟨node, mem_nodes_iff.2 ⟨i, hnode⟩, Node.reference?_eq_some_iff.2 ⟨.inl hkind, rfl⟩⟩
    · obtain ⟨node, hmem, hsub⟩ := List.mem_filterMap.1 hs
      obtain ⟨haccess, -, -, hline⟩ := Node.subscription?_eq_some_iff.1 hsub
      exact ⟨node, hmem, Node.reference?_eq_some_iff.2 ⟨.inr haccess, hline.symm⟩⟩

end Program

/-- Nothing but the feeds is added to the connections within pipelines. -/
theorem Builder.poolReads_finish {b : Builder} (h : b.program.Piped) :
    b.finish.poolReads = feeds b.program := by
  obtain ⟨pools, warnings, himply⟩ := implyPools_eq b.program b.references
  have hpiped : Program.Piped { b.program with pools, warnings } := h
  rw [finish, himply, Program.poolReads_feed, hpiped.poolReads_eq, List.nil_append]
  rfl

namespace Builder.Noted

variable {b : Builder} {declared : String → Prop}

/-- The first reference to a pool is on the least of the lines that refer to it. -/
theorem isLeast_of_find? (h : b.Noted declared) (horder : b.program.InOrder) {pool : String}
    {first : String × Nat} (hfirst : b.references.find? (·.1 = pool) = some first) :
    IsLeast {line | b.program.RefersOn pool line} first.2 := by
  have hrefers : ∀ line, (pool, line) ∈ b.references ↔ b.program.RefersOn pool line := by
    intro line
    rw [h.references]
    exact Program.mem_references_iff h.subscriptions
  have hsorted : b.references.Pairwise fun r s => r.2 ≤ s.2 := by
    rw [h.references]
    refine horder.pairwise.filterMap _ fun m n hle r hr s hs => ?_
    obtain ⟨_, -, rfl⟩ := Option.map_eq_some_iff.1 hr
    obtain ⟨_, -, rfl⟩ := Option.map_eq_some_iff.1 hs
    exact hle
  obtain ⟨hpool, before, after, hsplit, hbefore⟩ := List.find?_eq_some_iff_append.1 hfirst
  obtain ⟨name, line⟩ := first
  obtain rfl : name = pool := of_decide_eq_true hpool
  rw [hsplit] at hsorted hrefers
  obtain ⟨-, htail, -⟩ := List.pairwise_append.1 hsorted
  refine ⟨(hrefers line).1 (List.mem_append_right _ List.mem_cons_self), fun later hlater => ?_⟩
  rcases List.mem_append.1 ((hrefers later).2 hlater) with hearlier | hthere
  · exact absurd (hbefore _ hearlier) (by simp)
  · rcases List.mem_cons.1 hthere with heq | hafter
    · cases heq
      exact Nat.le_refl _
    · exact (List.pairwise_cons.1 htail).1 _ hafter

/-- A pool is referred to exactly if there is a first reference to it. -/
theorem exists_refersOn_iff (h : b.Noted declared) (pool : String) :
    (∃ line, b.program.RefersOn pool line) ↔
      ∃ first, b.references.find? (·.1 = pool) = some first := by
  rw [← Option.isSome_iff_exists, List.find?_isSome, h.references]
  constructor
  · rintro ⟨line, hline⟩
    exact ⟨_, (Program.mem_references_iff h.subscriptions).2 hline, decide_eq_true rfl⟩
  · rintro ⟨⟨name, line⟩, hmem, hname⟩
    obtain rfl : name = pool := of_decide_eq_true hname
    exact ⟨line, (Program.mem_references_iff h.subscriptions).1 hmem⟩

/-- Implied pools come from the first references to pools that are not declared. -/
theorem get?_finish_implied (h : b.Noted declared) {pool : String} {d : PoolDeclaration} :
    (b.finish.pools.get? pool = some d ∧ d.implied = true) ↔
      ¬ declared pool ∧ ∃ first, b.references.find? (·.1 = pool) = some first ∧
        d = ⟨pool, "null", first.2, true⟩ := by
  rw [(finish_eq b).1, get?_implyPools, ← h.listed, Record.contains]
  match hget : b.program.pools.get? pool with
  | some d' =>
    have hdeclared : d'.implied = false := (h.named _ (Record.mem_of_get? hget)).2
    simp only [Option.some_or, Option.isSome_some]
    constructor
    · rintro ⟨heq, himplied⟩
      cases heq
      rw [hdeclared] at himplied
      cases himplied
    · exact fun hnot => absurd trivial hnot.1
  | none =>
    simp only [Option.none_or, Option.map_eq_some_iff]
    constructor
    · rintro ⟨⟨first, hfirst, rfl⟩, -⟩
      exact ⟨by simp, first, hfirst, rfl⟩
    · rintro ⟨-, first, hfirst, rfl⟩
      exact ⟨⟨first, hfirst, rfl⟩, rfl⟩

/-- What is finished from such notes has a table of pools. -/
theorem poolTable_finish (h : b.Noted declared) (hindexed : b.program.Indexed)
    (hpiped : b.program.Piped) (horder : b.program.InOrder) :
    b.finish.PoolTable declared := by
  obtain ⟨hnodes, -, -⟩ := finish_nodes b
  have hsubscriptions := (Program.agrees_finish b).subscriptions
  have hrefers : ∀ pool line, b.finish.RefersOn pool line ↔ b.program.RefersOn pool line := by
    intro pool line
    unfold Program.RefersOn Program.node?
    rw [hnodes, hsubscriptions]
  constructor
  case named =>
    rw [(finish_eq b).1]
    exact mem_pools_implyPools b.references fun e he => (h.named e he).1
  case listed =>
    intro pool
    simp only [hrefers]
    rw [h.exists_refersOn_iff, ← h.listed, (finish_eq b).1, Record.contains, get?_implyPools,
      Option.isSome_or, Option.isSome_map, Bool.or_eq_true, Record.contains,
      Option.isSome_iff_exists (x := b.references.find? _)]
  case implied =>
    intro pool
    simp only [h.get?_finish_implied, hrefers, h.exists_refersOn_iff]
    constructor
    · rintro ⟨d, hnot, first, hfirst, -⟩
      exact ⟨⟨first, hfirst⟩, hnot⟩
    · rintro ⟨⟨first, hfirst⟩, hnot⟩
      exact ⟨_, hnot, first, hfirst, rfl⟩
  case warned =>
    intro pool d hget himplied
    obtain ⟨hnot, first, hfirst, rfl⟩ := h.get?_finish_implied.1 ⟨hget, himplied⟩
    simp only [hrefers]
    refine ⟨h.isLeast_of_find? horder hfirst, ?_⟩
    have hnone : b.program.warnings.filter (·.problem = .undeclaredPool pool) = [] := by
      refine List.filter_eq_nil_iff.2 fun w hw hproblem => h.quiet w hw ?_
      rw [of_decide_eq_true hproblem]
      rfl
    rw [(finish_eq b).2, warnings_implyPools, hnone, if_neg (mt (h.listed pool).1 hnot), hfirst]
    rfl
  case unwarned =>
    intro w hw hkind
    rw [(finish_eq b).2] at hw
    rcases mem_warnings_implyPools hw with hold | ⟨pool, hpool⟩
    · exact absurd hkind (h.quiet w hold)
    · -- The warning is the one of its pool, which then was neither declared nor left unreferred.
      have hmem : w ∈ List.filter (·.problem = .undeclaredPool pool) _ :=
        List.mem_filter.2 ⟨hw, decide_eq_true hpool⟩
      rw [warnings_implyPools] at hmem
      rcases List.mem_append.1 hmem with hold | hnew
      · exact absurd hkind (h.quiet w (List.mem_filter.1 hold).1)
      · split at hnew
        · cases hnew
        · next hmissing =>
          obtain ⟨first, hfirst, -⟩ := Option.map_eq_some_iff.1 (Option.mem_toList.1 hnew)
          have hnot : ¬ declared pool := mt (h.listed pool).2 hmissing
          exact ⟨pool, _, hpool, h.get?_finish_implied.2 ⟨hnot, first, hfirst, rfl⟩⟩
  case fed =>
    intro source target
    unfold Program.node?
    rw [hnodes, hsubscriptions, poolReads_finish hpiped]
    exact Program.mem_feeds_iff hindexed
  case fedOnce =>
    rw [poolReads_finish hpiped]
    exact Program.nodup_feeds hindexed h.subscriptions

end Builder.Noted

/-- Every source text builds a graph with a table of pools. -/
theorem Program.parse_poolTable (source : String) :
    (parse source).PoolTable (Source.Declares source) := by
  obtain ⟨warnings, hquiet, hparse⟩ : ∃ warnings : List Warning,
      (∀ w ∈ warnings, w.problem.kind ≠ "UndeclaredPoolReference") ∧
      parse source = ((Source.scan source).lines.foldl Builder.addLine
        { program := { warnings } }).finish := by
    unfold parse
    simp only
    split
    · next line _ =>
      refine ⟨[⟨line, .unterminatedComment⟩], fun w hw => ?_, rfl⟩
      rw [List.mem_singleton.1 hw]
      simp [Problem.kind]
    · exact ⟨[], List.forall_mem_nil _, rfl⟩
  have hnoted : Builder.Noted { program := { warnings } } fun _ => False :=
    ⟨List.forall_mem_nil _, fun _ => by simp [Record.contains, Record.get?], rfl, rfl, hquiet⟩
  have hlaid : Builder.LaidOut { program := { warnings } } :=
    ⟨id, (Layout.empty id).congr rfl rfl rfl, fun _ h => by cases h⟩
  obtain ⟨anchors, hlayout, -⟩ := hlaid.foldl (Source.scan source).lines
  have hpiped : Program.Piped { warnings } := List.forall_mem_nil _
  have horder : Program.InOrder { warnings } := fun i j a b hij ha => by simp [node?] at ha
  have hnumbers := (Source.scanLines_increasing 1 none (Text.lines source.toList)).1
  have hbuilt : Builder.Noted _ (Source.Declares source) :=
    (hnoted.foldl (Source.scan source).lines).congr fun _ => iff_of_eq (false_or _)
  rw [hparse]
  refine hbuilt.poolTable_finish hlayout.indexed (Builder.piped_foldl hpiped _)
    (Builder.inOrder_foldl horder hnumbers fun i node hnode => ?_)
  simp [node?] at hnode

end Sluice
