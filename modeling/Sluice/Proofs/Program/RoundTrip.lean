/-
  Sluice.Proofs.Program.RoundTrip

  A pipeline that is written down and read again. The line of a draft is scanned as one line, says
  what the draft says, and builds the nodes that the draft describes, in order: kinds, names,
  arguments, steps and all. What is read differs from what was written in one point, the field
  `value` at the start of a path.

  A draft is one line of text. The texts in it may have newlines inside of string literals, and
  then they are not: string literals end with their line.
-/

import Sluice.Proofs.Program.Build
import Sluice.Proofs.Program.Draft

namespace Sluice

namespace Draft

open Source (Inline isPlain)
open Segment (isIdentifier isNameChar readChars)

-- ============================================================================
-- The line of a stream
-- ============================================================================

section

variable {literal : List Char} {texts : List (List Char)}
  (htrim : Text.trimChars literal = literal) (hliteral : Inline ['|'] literal)
  (htexts : ∀ text ∈ texts, Writable text)
include htrim hliteral htexts

theorem splitPipes_stream (front : List Char) (hfront : ∀ c ∈ front, c = ' ') :
    Source.splitPipes (front ++ piped (literal :: texts)) = literal :: texts := by
  refine splitPipes_piped front hfront (List.cons_ne_nil _ _) fun text htext => ?_
  rcases List.mem_cons.1 htext with rfl | htext
  · exact ⟨htrim, hliteral⟩
  · exact (htexts text htext).piece

/-- The mark of a stream and all that follows it. -/
theorem inline_stream (live : Bool) :
    Inline [] ((if live then ['~', '?', ' '] else ['~', ' ']) ++ piped (literal :: texts)) := by
  refine Inline.plain_append (by cases live <;> decide) (inline_piped fun text htext => ?_)
  rcases List.mem_cons.1 htext with rfl | htext
  · exact hliteral.mono (by simp)
  · exact (htexts text htext).inline.mono (by simp)

/-- What a stream line is after trimming: without a literal and without parts, the mark alone. -/
theorem trimChars_stream (live : Bool) :
    ∃ tail, Text.trimChars
        ((if live then ['~', '?', ' '] else ['~', ' ']) ++ piped (literal :: texts)) =
        (if live then ['~', '?'] else ['~']) ++ tail ∧
      (∀ c ∈ tail.head?, c = ' ') ∧ Source.splitPipes tail = literal :: texts ∧
      Source.isBalanced ((if live then ['~', '?'] else ['~']) ++ tail) = true := by
  have hmark : (if live then ['~', '?', ' '] else ['~', ' ']) =
      (if live then ['~', '?'] else ['~']) ++ [' '] := by
    cases live <;> rfl
  have hhead : ∃ c, (if live then ['~', '?', ' '] else ['~', ' ']).head? = some c ∧
      Text.isBlank c = false := by
    cases live <;> exact ⟨_, rfl, rfl⟩
  obtain ⟨c, hhead, hc⟩ := hhead
  have hsplit := splitPipes_stream htrim hliteral htexts
  by_cases hempty : literal = [] ∧ texts = []
  · obtain ⟨rfl, rfl⟩ := hempty
    exact ⟨[], by cases live <;> rfl, by simp, hsplit [] (by simp), by cases live <;> rfl⟩
  · obtain ⟨last, hlast, -, d, hd, hblank⟩ :
        ∃ last, (literal :: texts).getLast? = some last ∧ Text.Solid last := by
      cases texts with
      | nil => exact ⟨literal, rfl, Text.solid_of_trimmed htrim fun h => hempty ⟨h, rfl⟩⟩
      | cons text others =>
        have hne := List.cons_ne_nil text others
        refine ⟨_, ?_, (htexts _ (List.getLast_mem hne)).solid⟩
        rw [List.getLast?_cons_cons]
        exact List.getLast?_eq_some_getLast hne
    have hsolid := Text.solid_append hhead hc
      (Text.getLast?_joinWith [' ', '|', ' '] hlast hd) hblank
    refine ⟨' ' :: piped (literal :: texts), ?_, by simp, hsplit [' '] (by simp), ?_⟩
    · rw [piped, Text.trimChars_of_solid hsolid, hmark, List.append_assoc]
      rfl
    · have hbalanced := (inline_stream htrim hliteral htexts live).balanced
      rw [hmark, List.append_assoc] at hbalanced
      exact hbalanced

end

/-- The mark of a stream is read before anything else on a line. -/
theorem ofChars_mark (live : Bool) {tail : List Char}
    (htail : live = false → tail.head? ≠ some '?') :
    Statement.ofChars ((if live then ['~', '?'] else ['~']) ++ tail) =
      Statement.ofStream live tail := by
  cases live with
  | true => rfl
  | false =>
    cases tail with
    | nil => rfl
    | cons c tail =>
      have hc : c ≠ '?' := fun heq => htail rfl (congrArg some heq)
      have hkeyword : ∀ keyword ∈ ["import", "use", "fn", "let"],
          Statement.keywordRest? keyword ('~' :: c :: tail) = none := by
        simp [Statement.keywordRest?, Statement.after?]
      simp only [List.forall_mem_cons] at hkeyword
      obtain ⟨himport, huse, hfn, hlet, -⟩ := hkeyword
      show Statement.ofChars ('~' :: c :: tail) = _
      rw [Statement.ofChars, himport, huse, hfn, hlet]
      · rfl
      · intro rest heq
        cases heq
        exact hc rfl

/-- A stream line says which literal it starts with, and what follows. -/
theorem ofChars_stream (live : Bool) {literal tail : List Char} {texts : List (List Char)}
    (htail : ∀ c ∈ tail.head?, c = ' ') (hsplit : Source.splitPipes tail = literal :: texts) :
    Statement.ofChars ((if live then ['~', '?'] else ['~']) ++ tail) =
      .stream live (String.ofList literal) texts := by
  rw [ofChars_mark live, Statement.ofStream, hsplit]
  intro _ hmark
  exact absurd (htail '?' hmark) (by decide)

-- ============================================================================
-- The line of a subscription
-- ============================================================================

/-- A name that is not the keyword hides it. -/
theorem keywordRest?_eq_none {keyword : String} (hkeyword : isIdentifier keyword.toList = true)
    {name : List Char} (hname : isIdentifier name = true) (hne : name ≠ keyword.toList)
    (rest : List Char) : Statement.keywordRest? keyword (name ++ ' ' :: rest) = none := by
  unfold Statement.keywordRest?
  split
  · next c after hafter =>
    unfold Statement.after? at hafter
    split at hafter
    · next hstart =>
      -- A blank behind the keyword ends the word, and the word is the name.
      rw [if_neg]
      intro hblank
      obtain ⟨tail, htail⟩ := List.isPrefixOf_iff_prefix.1 hstart
      rw [Option.some.injEq, ← htail, ← String.length_toList, List.drop_left] at hafter
      have hspace : ∀ d ∈ (' ' :: rest).head?, isNameChar d = false := by
        rintro d ⟨⟩
        decide
      have hafter' : ∀ d ∈ tail.head?, isNameChar d = false := by
        rw [hafter]
        rintro d ⟨⟩
        exact isNameChar_of_isBlank hblank
      have hword := (takeWhile_append_stop (isNameChar_of_isIdentifier hname) hspace).1
      rw [← htail,
        (takeWhile_append_stop (isNameChar_of_isIdentifier hkeyword) hafter').1] at hword
      exact hne hword.symm
    · cases hafter
  · rfl

/-- The arrow is the first one behind a name. -/
theorem splitArrow?_append {front : List Char} (hfront : '-' ∉ front) (rest : List Char) :
    Statement.splitArrow? (front ++ '-' :: '>' :: rest) = some (front, rest) := by
  induction front with
  | nil => rfl
  | cons c front ih =>
    rw [List.mem_cons, not_or] at hfront
    rw [List.cons_append, Statement.splitArrow?, ih hfront.2]
    · rfl
    · rintro next rfl
      exact absurd rfl hfront.1

section

variable {pool : List Char} {texts : List (List Char)} (hpool : isIdentifier pool = true)
include hpool

/-- The pool and the arrow are plain text in front of what follows. -/
theorem inline_subscription {delimiters rest : List Char} (hsub : delimiters ⊆ [',', '|'])
    (hrest : Inline delimiters rest) :
    Inline delimiters (pool ++ ' ' :: '-' :: '>' :: ' ' :: rest) := by
  have harrow : isPlain [',', '|'] [' ', '-', '>', ' '] = true := by decide
  have hbehind : Inline delimiters ([' ', '-', '>', ' '] ++ rest) :=
    Inline.plain_append (Source.isPlain_mono harrow hsub) hrest
  exact Inline.plain_append
    (Source.isPlain_mono (isPlain_of_name (isNameChar_of_isIdentifier hpool)) hsub) hbehind

theorem solid_subscription {rest : List Char} (hrest : Text.Solid rest) :
    Text.Solid (pool ++ ' ' :: '-' :: '>' :: ' ' :: rest) := by
  obtain ⟨⟨c, hhead, hc⟩, -⟩ := (writable_name hpool).solid
  obtain ⟨-, d, hlast, hd⟩ := hrest
  have hback : (' ' :: '-' :: '>' :: ' ' :: rest).getLast? = some d := by
    simp [List.getLast?_cons, hlast]
  exact Text.solid_append hhead hc hback hd

/-- No branch keyword starts a line with an arrow. -/
theorem startsWithBranch_subscription (htexts : ∀ text ∈ texts, Writable text)
    (hne : texts ≠ []) :
    Statement.startsWithBranch (pool ++ ' ' :: '-' :: '>' :: ' ' :: piped texts) = false := by
  obtain ⟨text, others, rfl⟩ := List.exists_cons_of_ne_nil hne
  have hfirst := htexts text List.mem_cons_self
  let first := pool ++ ' ' :: '-' :: '>' :: ' ' :: text
  have hline : pool ++ ' ' :: '-' :: '>' :: ' ' :: piped (text :: others) =
      piped (first :: others) := by
    cases others with
    | nil => rfl
    | cons next others => simp [piped, Text.joinWith, first]
  have hsplit : Source.splitPipes (piped (first :: others)) = first :: others := by
    refine splitPipes_piped [] (List.forall_mem_nil _) (List.cons_ne_nil _ _) fun t ht => ?_
    rcases List.mem_cons.1 ht with rfl | ht
    · exact ⟨Text.trimChars_of_solid (solid_subscription hpool hfirst.solid),
        inline_subscription hpool (by simp) (hfirst.inline.mono (by simp))⟩
    · exact (htexts t (List.mem_cons_of_mem text ht)).piece
  have hkeyword : branchOfKeyword? first = none :=
    branchOfKeyword?_eq_none (c := ' ') (by simp [first]) (by decide)
  rw [hline, Statement.startsWithBranch, hsplit]
  simp [hkeyword]

/-- A subscription line says which pool it starts with, and what follows. -/
theorem ofChars_subscription (hreserved : pool ∉ Statement.reserved)
    (htexts : ∀ text ∈ texts, Writable text) (hne : texts ≠ []) :
    Statement.ofChars (pool ++ ' ' :: '-' :: '>' :: ' ' :: piped texts) =
      .subscription (String.ofList pool) texts := by
  have hchars := isNameChar_of_isIdentifier hpool
  have hpoolne := ne_nil_of_isIdentifier hpool
  have hkeyword : ∀ keyword, keyword.toList ∈ Statement.reserved →
      isIdentifier keyword.toList = true →
      Statement.keywordRest? keyword (pool ++ ' ' :: '-' :: '>' :: ' ' :: piped texts) = none :=
    fun keyword hmem hident => keywordRest?_eq_none hident hpool
      (fun h => hreserved (h ▸ hmem)) _
  have hbody := solid_piped hne htexts
  have hsplit := splitPipes_piped [] (List.forall_mem_nil _) hne fun text htext =>
    (htexts text htext).piece
  have hdash : '-' ∉ pool ++ [' '] := by
    rw [List.mem_append, not_or]
    exact ⟨fun h => absurd (hchars '-' h) (by decide), by decide⟩
  have harrow : Statement.splitArrow? (pool ++ ' ' :: '-' :: '>' :: ' ' :: piped texts) =
      some (pool ++ [' '], ' ' :: piped texts) := by
    rw [List.append_cons]
    exact splitArrow?_append hdash _
  have hleft : Text.trimChars (pool ++ [' ']) = pool := by
    rw [Text.trimChars_concat_blank pool rfl, Text.trimChars_of_solid (writable_name hpool).solid]
  have hright : Text.trimChars (' ' :: piped texts) = piped texts := by
    rw [Text.trimChars_cons_blank rfl, Text.trimChars_of_solid hbody]
  have hnonempty : (piped texts).isEmpty = false := by
    rw [List.isEmpty_eq_false_iff]
    exact hbody.ne_nil
  have hplain : Statement.ofPlain (pool ++ ' ' :: '-' :: '>' :: ' ' :: piped texts) =
      .subscription (String.ofList pool) texts := by
    rw [Statement.ofPlain, startsWithBranch_subscription hpool htexts hne, if_neg (by simp),
      harrow]
    simp only [Statement.ofSubscription, hleft, hright, hpool, hnonempty]
    rw [List.nil_append] at hsplit
    rw [if_neg (by simp), hsplit]
  have hstart : ∀ c rest, pool ++ ' ' :: '-' :: '>' :: ' ' :: piped texts = c :: rest →
      isNameChar c = true := by
    intro c rest heq
    obtain ⟨d, others, rfl⟩ := List.exists_cons_of_ne_nil hpoolne
    cases heq
    exact hchars _ List.mem_cons_self
  rw [Statement.ofChars, hkeyword "import" (by decide) (by decide),
    hkeyword "use" (by decide) (by decide), hkeyword "fn" (by decide) (by decide),
    hkeyword "let" (by decide) (by decide)]
  · exact hplain
  -- A line that starts with a name starts with no other mark.
  all_goals
    intro rest heq
    exact absurd (hstart _ _ heq) (by decide)

end

end Draft

-- ============================================================================
-- Building
-- ============================================================================

namespace Builder

/-- A builder that was given some segments and nothing else: their nodes are there in order, in
one pipeline that no branch was opened in. -/
structure Holds (segments : List Segment) (state : Builder × OpenPipeline) : Prop where
  nodes : state.1.program.nodes.toList = Draft.placed segments
  pipelines : state.1.program.pipelineCount = 1
  warnings : state.1.program.warnings = []
  pipeline : state.2.id = 0
  scope : state.2.scope = none
  closes : state.2.closesAtTerminal = false

/-- A segment that reads as an operator is one node more. -/
theorem Holds.addSegment {segments : List Segment} {state : Builder × OpenPipeline}
    (h : Holds segments state) {source : List Char} {segment : Segment}
    (hread : Segment.readChars source = .ok segment)
    (hbranch : segment.kind.expects?.isSome = false) :
    Holds (segments ++ [segment]) (addSegment 1 state source) := by
  obtain ⟨b, pipeline⟩ := state
  have hstep : Builder.addSegment 1 (b, pipeline) source = b.addOperator pipeline segment 1 := by
    simp only [Builder.addSegment, hread, hbranch]
    rfl
  have hleave : (isTerminalName segment.name && pipeline.closesAtTerminal) = false := by
    rw [show pipeline.closesAtTerminal = false from h.closes, Bool.and_false]
  have hsize : b.program.nodes.size = segments.length := by
    rw [← Array.length_toList, h.nodes, Draft.placed, List.length_mapIdx]
  have hpipeline : pipeline.id = 0 := h.pipeline
  have hscope : pipeline.scope = none := h.scope
  rw [hstep, addOperator, hleave]
  constructor
  case nodes =>
    show (b.program.nodes.push _).toList = _
    rw [Array.toList_push, h.nodes, Draft.placed, Draft.placed, List.mapIdx_concat, hsize]
    simp [hpipeline, hscope]
  case pipelines => exact h.pipelines
  case warnings => exact h.warnings
  case pipeline => exact hpipeline
  case scope => exact hscope
  case closes => exact h.closes

open Draft (Part withoutValue) in
/-- The parts of a draft are so many nodes more. -/
theorem Holds.foldl {segments : List Segment} {state : Builder × OpenPipeline}
    (h : Holds segments state) {parts : List Part} (hparts : ∀ part ∈ parts, part.WellFormed) :
    Holds (segments ++ parts.map (Part.segment withoutValue))
      ((parts.map Part.chars).foldl (Builder.addSegment 1) state) := by
  induction parts generalizing segments state with
  | nil =>
    rw [List.map_nil, List.append_nil]
    exact h
  | cons part parts ih =>
    have hbranch : (part.segment withoutValue).kind.expects?.isSome = false := by
      cases part <;> rfl
    have hstep := h.addSegment (Draft.readChars_part (hparts part List.mem_cons_self)) hbranch
    rw [List.map_cons, List.append_cons]
    exact ih hstep fun p hp => hparts p (List.mem_cons_of_mem part hp)

/-- A pipeline takes the parts of a draft as they come. -/
theorem holds_extend {segments : List Segment} {b : Builder} {pipeline : OpenPipeline}
    (h : Holds segments (b, pipeline)) (hcurrent : b.current = some pipeline)
    {parts : List Draft.Part} (hparts : ∀ part ∈ parts, part.WellFormed) :
    ∃ last, Holds (segments ++ parts.map (Draft.Part.segment Draft.withoutValue))
      (b.extend 1 (parts.map Draft.Part.chars), last) := by
  have hfold := h.foldl hparts
  unfold extend
  rw [hcurrent]
  exact ⟨_, hfold.nodes, hfold.pipelines, hfold.warnings, hfold.pipeline, hfold.scope,
    hfold.closes⟩

theorem feed_warnings (p : Program) (edges : List (Nat × Nat)) :
    (edges.foldl (fun p (source, target) => p.connect source target .poolRead) p).warnings =
      p.warnings := by
  induction edges generalizing p with
  | nil => rfl
  | cons edge rest ih => exact ih (p.connect edge.1 edge.2 .poolRead)

/-- Implying pools warns of undeclared pools only. -/
theorem implyPools_warnings {p : Program} (references : List (String × Nat))
    (h : ∀ w ∈ p.warnings, ∃ pool, w.problem = .undeclaredPool pool) :
    ∀ w ∈ (implyPools p references).warnings, ∃ pool, w.problem = .undeclaredPool pool := by
  induction references generalizing p with
  | nil => exact h
  | cons reference rest ih =>
    unfold implyPools
    split
    · exact ih h
    · refine ih fun w hw => ?_
      rcases List.mem_append.1 hw with hw | hw
      · exact h w hw
      · rw [List.mem_singleton.1 hw]
        exact ⟨_, rfl⟩

/-- Where building had nothing to warn of, finishing warns of undeclared pools at most. -/
theorem finish_warnings {b : Builder} (h : b.program.warnings = []) :
    ∀ w ∈ b.finish.warnings, ∃ pool, w.problem = .undeclaredPool pool := by
  unfold finish
  simp only [feed_warnings]
  refine implyPools_warnings b.references ?_
  rw [h]
  exact List.forall_mem_nil _

end Builder

/-- The program of a text that is one balanced line. -/
theorem Program.parse_line {cs : List Char} (hline : '\n' ∉ cs)
    (hunbroken : Source.unbroken .outside cs = true) (hne : Text.trimChars cs ≠ [])
    (hbalanced : Source.isBalanced (Text.trimChars cs) = true) :
    Program.parse (String.ofList cs) =
      (({} : Builder).addStatement 1 (String.ofList (Text.trimChars cs))
        (Statement.ofChars (Text.trimChars cs))).finish := by
  rw [Program.parse, Source.scan_line hline hunbroken hne]
  simp only [List.foldl_cons, List.foldl_nil, Builder.addLine, String.toList_ofList, hbalanced,
    if_true]

-- ============================================================================
-- Drafts read back
-- ============================================================================

namespace Draft

open Source (Inline)

/-- The program of a draft's line is one pipeline of the nodes that the draft describes, when
`meant` says which value a path leads to. Nothing is wrong with the line: the only warnings
are of pools that no line declares. -/
structure ReadsBack (meant : List String → List String) (d : Draft) : Prop where
  nodes : (Program.parse d.render).nodes.toList = d.nodes meant
  pipelines : (Program.parse d.render).pipelineCount = 1
  warnings : ∀ w ∈ (Program.parse d.render).warnings, ∃ pool, w.problem = .undeclaredPool pool

variable {d : Draft}

/-- The line of a draft: it can be scanned as one, is balanced, and says what the draft says. -/
theorem WellFormed.line (h : d.WellFormed) :
    Source.unbroken .outside d.chars = true ∧ Text.trimChars d.chars ≠ [] ∧
      Source.isBalanced (Text.trimChars d.chars) = true ∧
      Statement.ofChars (Text.trimChars d.chars) =
        match d.origin with
        | .stream live literal => .stream live literal (d.parts.map Part.chars)
        | .subscription pool => .subscription pool (d.parts.map Part.chars) := by
  obtain ⟨origin, parts⟩ := d
  obtain ⟨horigin, hparts⟩ := h
  have htexts : ∀ text ∈ parts.map Part.chars, Writable text := by
    intro text htext
    obtain ⟨part, hpart, rfl⟩ := List.mem_map.1 htext
    exact Part.writable (hparts part hpart)
  cases origin with
  | stream live literal =>
    obtain ⟨htrim, hliteral⟩ := horigin
    obtain ⟨tail, hline, htail, hsplit, hbalanced⟩ := trimChars_stream htrim hliteral htexts live
    have hchars : Text.trimChars (chars ⟨.stream live literal, parts⟩) =
        (if live then ['~', '?'] else ['~']) ++ tail := hline
    have hstatement := ofChars_stream live htail hsplit
    rw [String.ofList_toList] at hstatement
    rw [hchars]
    exact ⟨(inline_stream htrim hliteral htexts live).unbroken, by cases live <;> simp, hbalanced,
      hstatement⟩
  | subscription pool =>
    obtain ⟨hpool, hne⟩ := horigin
    have hne' : parts.map Part.chars ≠ [] := by simpa using hne
    have hbody := solid_piped hne' htexts
    have hinline : Inline [] (chars ⟨.subscription pool, parts⟩) :=
      inline_subscription hpool.1 (by simp)
        (inline_piped fun text htext => (htexts text htext).inline.mono (by simp))
    have hsolid : Text.Solid (chars ⟨.subscription pool, parts⟩) :=
      solid_subscription hpool.1 hbody
    have hstatement := ofChars_subscription hpool.1 hpool.2.1 htexts hne'
    rw [String.ofList_toList] at hstatement
    rw [Text.trimChars_of_solid hsolid]
    exact ⟨hinline.unbroken, hsolid.ne_nil, hinline.balanced, hstatement⟩

/-- What a draft says builds its nodes. -/
theorem WellFormed.holds (h : d.WellFormed) :
    ∃ last, Builder.Holds (d.source :: d.parts.map (Part.segment withoutValue))
      ((({} : Builder).addStatement 1 (Text.trim d.render)
        (Statement.ofChars (Text.trimChars d.chars))), last) := by
  rw [h.line.2.2.2]
  obtain ⟨origin, parts⟩ := d
  obtain ⟨-, hparts⟩ := h
  let opened : OpenPipeline := { id := 0, tail := 0 }
  cases origin with
  | stream live literal =>
    let line := render ⟨.stream live literal, parts⟩
    have hstart : Builder.Holds [source ⟨.stream live literal, parts⟩]
        (({} : Builder).startStream live literal (Text.trim line) 1, opened) := by
      cases live <;> exact ⟨rfl, rfl, rfl, rfl, rfl, rfl⟩
    have hcurrent : (({} : Builder).startStream live literal (Text.trim line) 1).current =
        some opened := by
      cases live <;> rfl
    exact Builder.holds_extend hstart hcurrent hparts
  | subscription pool =>
    let line := render ⟨.subscription pool, parts⟩
    have hstart : Builder.Holds [source ⟨.subscription pool, parts⟩]
        (({} : Builder).startSubscription pool (Text.trim line) 1, opened) :=
      ⟨rfl, rfl, rfl, rfl, rfl, rfl⟩
    exact Builder.holds_extend hstart rfl hparts

/-- Every draft on one line reads back, where a leading `value` of a path is the value itself. -/
theorem parse_render (d : Draft) (h : d.WellFormed) (hline : '\n' ∉ d.chars) :
    d.ReadsBack withoutValue := by
  obtain ⟨hunbroken, hne, hbalanced, -⟩ := h.line
  obtain ⟨last, hholds⟩ := h.holds
  have hchars : d.render.toList = d.chars := String.toList_ofList
  rw [Text.trim, hchars] at hholds
  have hparse : Program.parse d.render = _ := Program.parse_line hline hunbroken hne hbalanced
  obtain ⟨hnodes, -, hpipelines⟩ := Builder.finish_nodes
    (({} : Builder).addStatement 1 (String.ofList (Text.trimChars d.chars))
      (Statement.ofChars (Text.trimChars d.chars)))
  constructor
  case nodes =>
    rw [hparse, hnodes]
    exact hholds.nodes
  case pipelines =>
    rw [hparse, hpipelines]
    exact hholds.pipelines
  case warnings =>
    rw [hparse]
    exact Builder.finish_warnings hholds.warnings

/-- Prices that are picked out of a stream, joined into a pool, and shown. -/
def prices : Draft where
  origin := .stream false "[\x7b\"price\": 3\x7d, \x7b\"price\": 12\x7d]"
  parts := [
    .lens .filter [.field ["value", "price"], .compare [] .gt "10"],
    .lens .map [.compare ["price"] .ne "\"a | b, c\"", .call ⟨"text", none⟩],
    .lens .reduce [.call ⟨"add", some ["1", "[2, 3]"]⟩, .sum],
    .call ⟨"join", some ["\" | \""]⟩,
    .write "total",
    .call ⟨"print", none⟩]

/-- A draft with quotes, brackets and separators in its texts reads back. -/
theorem parse_render_prices :
    prices.WellFormed ∧ '\n' ∉ prices.chars ∧ prices.ReadsBack withoutValue :=
  ⟨by decide +kernel, by decide +kernel,
    parse_render prices (by decide +kernel) (by decide +kernel)⟩

/-- A lens that asks for the field `value`. -/
def fieldOfValue : Draft :=
  ⟨.stream false "0", [.lens .map [.field ["value"]]]⟩

/-- A stream of a text that has a newline in it. -/
def acrossLines : Draft :=
  ⟨.stream false "\"a\nb\"", []⟩

/-- The literal of a source, and the fields that a lens asks for. -/
def textsOf (node : Node) : List (List String) :=
  match node.kind with
  | .finiteSource literal => [[literal]]
  | .lens _ body => body.steps.map fun step =>
    match step with
    | .field path => path
    | _ => []
  | _ => []

/-- Not every draft reads back as it was written: a field `value` at the start of a path is lost,
and so is a newline in a string literal, with all that follows it. -/
theorem not_read_as_written :
    (fieldOfValue.WellFormed ∧ ¬ fieldOfValue.ReadsBack id) ∧
      (acrossLines.WellFormed ∧ ¬ acrossLines.ReadsBack id) := by
  refine ⟨⟨by decide, fun h => ?_⟩, ⟨by decide, fun h => ?_⟩⟩
  · have htexts := congrArg (List.map textsOf) h.nodes
    exact absurd htexts (by decide +kernel)
  · have htexts := congrArg (List.map textsOf) h.nodes
    exact absurd htexts (by decide +kernel)

end Draft

end Sluice
