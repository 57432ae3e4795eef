/-
  Sluice.Proofs.Program.Broken

  Pipelines on several lines. A stream or a subscription without branches means the same wherever
  it is broken before its bars: the shorter first line starts at the same origin with the first
  segments, and each continuation line has those of its pieces.

  What the builder does with a continuation differs in one thing from what it does with more of
  the same line: the continuation leaves the branches of the open pipeline. A pipeline without
  branches has none to leave.
-/

import Sluice.Proofs.Program.Pools
import Sluice.Proofs.Program.Relaid
import Sluice.Proofs.Program.RoundTrip
import Sluice.Proofs.Source.Breaking

namespace Sluice

open Source (pieces splitTopLevel IsDelimiter Cut Continuation Inline Breaks)

-- ============================================================================
-- Origins
-- ============================================================================

namespace Draft.Origin

/-- What a line says that starts at an origin. -/
def statement (origin : Origin) (segments : List (List Char)) : Statement :=
  match origin with
  | stream live literal => .stream live literal segments
  | subscription pool => .subscription pool segments

/-- The segments in the pieces behind the mark or the arrow of a line. The first piece of a stream
is its literal. -/
def segments (origin : Origin) (ps : List (List Char)) : List (List Char) :=
  match origin with
  | stream _ _ => ps.tail.map Text.trimChars
  | subscription _ => ps.map Text.trimChars

theorem segments_append (origin : Origin) (first : List Char) (ps more : List (List Char)) :
    origin.segments (first :: (ps ++ more)) =
      origin.segments (first :: ps) ++ more.map Text.trimChars := by
  cases origin <;> simp [segments]

theorem trimmed_segments (origin : Origin) (ps : List (List Char)) :
    ∀ s ∈ origin.segments ps, Text.trimChars s = s := by
  have htrimmed : ∀ ps : List (List Char), ∀ s ∈ ps.map Text.trimChars, Text.trimChars s = s :=
    fun ps => List.forall_mem_map.2 fun p _ => Text.trimChars_trimChars p
  cases origin with
  | stream live literal => exact htrimmed ps.tail
  | subscription pool => exact htrimmed ps

theorem statement_inj {origin : Origin} {segments segments' : List (List Char)}
    (h : origin.statement segments = origin.statement segments') : segments = segments' := by
  cases origin <;> exact (by cases h; rfl)

end Draft.Origin

-- ============================================================================
-- What a line starts with
-- ============================================================================

namespace Statement

/-- A statement that starts a pipeline. -/
def Starts : Statement → Prop
  | .stream .. | .subscription .. => True
  | _ => False

theorem starts_statement (origin : Draft.Origin) (segments : List (List Char)) :
    (origin.statement segments).Starts := by
  cases origin <;> trivial

theorem not_starts_ofImport (rest : List Char) : ¬ (ofImport rest).Starts := by
  unfold ofImport
  simp only
  split
  · exact id
  · split
    · exact id
    · exact id
  · exact id

theorem not_starts_ofPool (rest : List Char) : ¬ (ofPool rest).Starts := by
  unfold ofPool
  simp only
  split
  · exact id
  · split
    · exact id
    · split
      · exact id
      · exact id

/-- What starts a pipeline has the mark of a stream, or is plain; no keyword stands in front. -/
theorem of_ofChars_eq {cs : List Char} {origin : Draft.Origin} {segments : List (List Char)}
    (h : ofChars cs = origin.statement segments) :
    (∀ keyword ∈ ["import", "use", "fn", "let"], keywordRest? keyword cs = none) ∧
      ((∃ live rest, cs = (if live then ['~', '?'] else ['~']) ++ rest ∧
          (live = false → rest.head? ≠ some '?') ∧
          ofStream live rest = origin.statement segments) ∨
        ofPlain cs = origin.statement segments) := by
  have hstarts := starts_statement origin segments
  unfold ofChars at h
  split at h
  · exact absurd (h ▸ hstarts) (not_starts_ofImport _)
  · next hword =>
    obtain ⟨himport, huse⟩ := Option.or_eq_none_iff.1 hword
    split at h
    · exact (h ▸ hstarts : Starts (.function _)).elim
    · next hfn =>
      split at h
      · exact absurd (h ▸ hstarts) (not_starts_ofPool _)
      · next hlet =>
        refine ⟨by simp [himport, huse, hfn, hlet], ?_⟩
        split at h
        · next rest => exact .inl ⟨true, rest, rfl, by simp, h⟩
        · next rest hmark =>
          refine .inl ⟨false, rest, rfl, fun _ hhead => ?_, h⟩
          obtain ⟨tail, rfl⟩ := List.head?_eq_some_iff.1 hhead
          exact hmark tail rfl
        · exact (h ▸ hstarts : Starts (.continuation _)).elim
        · exact .inr h

theorem eq_of_splitArrow? {cs left right : List Char} (h : splitArrow? cs = some (left, right)) :
    cs = left ++ '-' :: '>' :: right := by
  induction cs generalizing left with
  | nil => cases h
  | cons c cs ih =>
    unfold splitArrow? at h
    split at h
    · next heq =>
      cases heq
      cases h
      rfl
    · next heq =>
      cases heq
      obtain ⟨⟨before, after⟩, hrest, hsides⟩ := Option.map_eq_some_iff.1 h
      cases hsides
      rw [ih hrest, List.cons_append]
    · next heq => cases heq

/-- What starts a pipeline without a mark has an arrow behind the name of a pool. -/
theorem of_ofPlain_eq {cs : List Char} {origin : Draft.Origin} {segments : List (List Char)}
    (h : ofPlain cs = origin.statement segments) :
    ∃ left right, cs = left ++ '-' :: '>' :: right ∧
      Segment.isIdentifier (Text.trimChars left) = true ∧
      origin = .subscription (String.ofList (Text.trimChars left)) ∧
      segments = Source.splitPipes (Text.trimChars right) := by
  have hstarts := starts_statement origin segments
  unfold ofPlain at h
  split at h
  · exact (h ▸ hstarts : Starts (.branch _)).elim
  · split at h
    · next left right harrow =>
      unfold ofSubscription at h
      simp only at h
      split at h
      · exact (h ▸ hstarts : Starts (.malformed _)).elim
      · next hform =>
        simp only [Bool.or_eq_true, Bool.not_eq_true', not_or, Bool.not_eq_false] at hform
        refine ⟨left, right, eq_of_splitArrow? harrow, hform.1, ?_⟩
        cases origin with
        | stream live literal => cases h
        | subscription pool =>
          cases h
          exact ⟨rfl, rfl⟩
    · exact (h ▸ hstarts : Starts (.malformed _)).elim

/-- Behind its word, a keyword needs a blank. -/
theorem keywordRest?_append (keyword : String) (cs : List Char) :
    keywordRest? keyword (keyword.toList ++ cs) = none ↔
      ∀ c ∈ cs.head?, Text.isBlank c = false := by
  have hafter : after? keyword (keyword.toList ++ cs) = some cs := by
    rw [after?, if_pos (List.isPrefixOf_iff_prefix.2 (List.prefix_append _ _)),
      ← String.length_toList, List.drop_left]
  rw [keywordRest?, hafter]
  cases cs with
  | nil => simp
  | cons c cs => simp

/-- Whether a line starts with a keyword is settled before the first dash. -/
theorem keywordRest?_dash {keyword : String} (hkeyword : '-' ∉ keyword.toList)
    {left right : List Char} (h : keywordRest? keyword (left ++ '-' :: right) = none)
    (rest : List Char) : keywordRest? keyword (left ++ '-' :: rest) = none := by
  cases hrest : keywordRest? keyword (left ++ '-' :: rest) with
  | none => rfl
  | some word =>
    -- A line that starts with the keyword has it before the dash.
    have hlead : keyword.toList <+: left := by
      have hstart := of_keywordRest? hrest
      rcases List.prefix_or_prefix_of_prefix hstart (List.prefix_append left ('-' :: rest)) with
        hlead | ⟨more, hmore⟩
      · exact hlead
      · rw [← hmore, List.prefix_append_right_inj] at hstart
        cases more with
        | nil =>
          rw [List.append_nil] at hmore
          exact ⟨[], by rw [List.append_nil, hmore]⟩
        | cons c more =>
          obtain rfl := (List.cons_prefix_cons.1 hstart).1
          exact absurd (hmore ▸ List.mem_append_right left List.mem_cons_self) hkeyword
    obtain ⟨behind, rfl⟩ := hlead
    rw [List.append_assoc] at h hrest
    rw [keywordRest?_append] at h
    have hnone : keywordRest? keyword (keyword.toList ++ (behind ++ '-' :: rest)) = none := by
      rw [keywordRest?_append]
      cases behind with
      | nil => exact h
      | cons c behind => exact h
    rw [hnone] at hrest
    cases hrest

end Statement

-- ============================================================================
-- Fronts
-- ============================================================================

/-- What stands in front of the first piece of a line that starts at an origin: the mark of a
stream, or the pool and the arrow of a subscription. It says what the pieces behind it mean. -/
structure Draft.Origin.Front (origin : Draft.Origin) (front first : List Char) : Prop where
  passes : ∀ c ∈ front, (Source.isQuote c = false ∧ Source.isOpening c = false ∧
    Source.isClosing c = false) ∧ c ≠ '|' ∧ c ≠ '<'
  reads : ∀ rest others, pieces '|' .outside 0 none rest = first :: others →
    Statement.ofChars (Text.trimChars (front ++ rest)) =
      origin.statement (origin.segments (first :: others))

namespace Draft.Origin

/-- Trimming a line keeps what stands in front, and the parts behind it. -/
theorem exists_kept {front : List Char} (hfront : Text.Solid front) {rest : List Char}
    {ps : List (List Char)} (hpieces : pieces '|' .outside 0 none rest = ps) :
    ∃ kept, Text.trimChars (front ++ rest) = front ++ kept ∧ kept <+: rest ∧
      Source.splitPipes kept = ps.map Text.trimChars := by
  have hbar : IsDelimiter '|' := by decide
  obtain ⟨kept, after, rfl, hafter, htrim⟩ := Text.trimChars_solid_append hfront rest
  have hsplit := Source.splitTopLevel_surround hbar (List.forall_mem_nil _) hafter kept
  refine ⟨kept, htrim, List.prefix_append kept after, ?_⟩
  rw [Source.splitPipes, ← hsplit, List.nil_append, splitTopLevel, hpieces]

/-- A text starts with a question mark only if its first piece does. -/
theorem head?_piece {rest first : List Char} {others : List (List Char)}
    (hpieces : pieces '|' .outside 0 none rest = first :: others)
    (hhead : rest.head? = some '?') : first.head? = some '?' := by
  obtain ⟨tail, rfl⟩ := List.head?_eq_some_iff.1 hhead
  have hfront : pieces '|' .outside 0 none (['?'] ++ tail) =
      ['?'].foldr Text.consHead (pieces '|' .outside 0 none tail) :=
    Source.pieces_front (List.forall_mem_singleton.2 (by decide)) tail
  obtain ⟨piece, more, hmore⟩ :=
    List.exists_cons_of_ne_nil (Source.pieces_ne_nil '|' .outside 0 none tail)
  rw [List.singleton_append, hpieces, hmore] at hfront
  cases hfront
  rfl

theorem front_stream (live : Bool) {first : List Char}
    (hfirst : live = false → first.head? ≠ some '?') :
    Front (.stream live (String.ofList (Text.trimChars first)))
      (if live then ['~', '?'] else ['~']) first where
  passes := by
    cases live with
    | true => exact List.forall_mem_cons.2 ⟨by decide, List.forall_mem_singleton.2 (by decide)⟩
    | false => exact List.forall_mem_singleton.2 (by decide)
  reads rest others hpieces := by
    have hsolid : Text.Solid (if live then ['~', '?'] else ['~']) := by
      cases live <;> exact ⟨⟨_, rfl, rfl⟩, _, rfl, rfl⟩
    obtain ⟨kept, htrim, hprefix, hsplit⟩ := exists_kept hsolid hpieces
    rw [htrim, Draft.ofChars_mark live, Statement.ofStream, hsplit]
    · rfl
    · intro hlive hhead
      obtain ⟨tail, rfl⟩ := List.head?_eq_some_iff.1 hhead
      obtain ⟨more, rfl⟩ := hprefix
      exact hfirst hlive (head?_piece hpieces rfl)

/-- What stands in front of an arrow is the name of a pool with blanks around it. -/
theorem mem_pool {left : List Char} (hleft : Segment.isIdentifier (Text.trimChars left) = true) :
    ∀ c ∈ left, Segment.isNameChar c = true ∨ Text.isBlank c = true := by
  obtain ⟨before, after, hbefore, hafter, hcs⟩ := Text.padded_trimChars left
  intro c hc
  rw [hcs, List.mem_append, List.mem_append] at hc
  rcases hc with (hc | hc) | hc
  · exact .inr (hbefore c hc)
  · exact .inl (Draft.isNameChar_of_isIdentifier hleft c hc)
  · exact .inr (hafter c hc)

/-- A character that neither a name has nor a blank is does not stand there. -/
theorem not_mem_pool {left : List Char}
    (hleft : Segment.isIdentifier (Text.trimChars left) = true) {c : Char}
    (hname : Segment.isNameChar c = false) (hblank : Text.isBlank c = false) : c ∉ left := by
  intro hc
  rcases mem_pool hleft c hc with h | h
  · rw [hname] at h
    cases h
  · rw [hblank] at h
    cases h

theorem passes_subscription {left : List Char}
    (hleft : Segment.isIdentifier (Text.trimChars left) = true) :
    ∀ c ∈ left ++ ['-', '>'], (Source.isQuote c = false ∧ Source.isOpening c = false ∧
      Source.isClosing c = false) ∧ c ≠ '|' ∧ c ≠ '<' := by
  have hmarks : (['"', '\'', '\x7b', '[', '(', '\x7d', ']', ')', '|', '<'].all fun d =>
      !Segment.isNameChar d && !Text.isBlank d) = true := by
    decide
  have harrow : ∀ c ∈ ['-', '>'], (Source.isQuote c = false ∧ Source.isOpening c = false ∧
      Source.isClosing c = false) ∧ c ≠ '|' ∧ c ≠ '<' :=
    List.forall_mem_cons.2 ⟨by decide, List.forall_mem_singleton.2 (by decide)⟩
  refine List.forall_mem_append.2 ⟨fun c hc => ?_, harrow⟩
  have hnot : ∀ d ∈ ['"', '\'', '\x7b', '[', '(', '\x7d', ']', ')', '|', '<'], c ≠ d := by
    rintro d hd rfl
    obtain ⟨hname, hblank⟩ : Segment.isNameChar c = false ∧ Text.isBlank c = false := by
      simpa using List.all_eq_true.1 hmarks c hd
    exact not_mem_pool hleft hname hblank hc
  simp only [List.forall_mem_cons] at hnot
  simp [Source.isQuote, Source.isOpening, Source.isClosing, hnot]

/-- No branch keyword starts a line with an arrow. -/
theorem startsWithBranch_arrow {left : List Char}
    (hleft : Segment.isIdentifier (Text.trimChars left) = true) (rest : List Char) :
    Statement.startsWithBranch (left ++ ['-', '>'] ++ rest) = false := by
  obtain ⟨piece, others, hpieces⟩ :=
    List.exists_cons_of_ne_nil (Source.pieces_ne_nil '|' .outside 0 none rest)
  have hdash : '-' ∈ Text.trimChars (left ++ ['-', '>'] ++ piece) :=
    Text.mem_trimChars (by simp) rfl
  have hkeyword := Draft.branchOfKeyword?_eq_none hdash (by decide)
  rw [Statement.startsWithBranch, Source.splitPipes, splitTopLevel,
    Source.pieces_front (passes_subscription hleft), hpieces, Text.consHead_foldr, List.map_cons]
  simp only [hkeyword, Option.isSome_none]

/-- The front of a subscription, when no keyword hides the pool and a segment follows. -/
theorem front_subscription {left : List Char}
    (hleft : Segment.isIdentifier (Text.trimChars left) = true)
    (hhead : ∃ c, left.head? = some c ∧ Text.isBlank c = false)
    (hkeyword : ∀ keyword ∈ ["import", "use", "fn", "let"], ∀ rest,
      Statement.keywordRest? keyword (left ++ '-' :: rest) = none)
    {first : List Char} (hfirst : ¬ Text.Blank first) :
    Front (.subscription (String.ofList (Text.trimChars left))) (left ++ ['-', '>']) first where
  passes := passes_subscription hleft
  reads rest others hpieces := by
    have hdash : '-' ∉ left := not_mem_pool hleft (by decide) (by decide)
    obtain ⟨c, hhead, hc⟩ := hhead
    have hsolid : Text.Solid (left ++ ['-', '>']) := Text.solid_append hhead hc rfl rfl
    obtain ⟨kept, htrim, -, hsplit⟩ := exists_kept hsolid hpieces
    have hfront : left ++ ['-', '>'] ++ kept = left ++ '-' :: '>' :: kept := by simp
    -- The first segment is not blank, so something stands behind the arrow.
    have hsome : (Text.trimChars kept).isEmpty = false := by
      rw [List.isEmpty_eq_false_iff, ne_eq, Text.trimChars_eq_nil_iff]
      intro hblank
      have hbar : IsDelimiter '|' := by decide
      rw [Source.splitPipes, splitTopLevel, Source.pieces_blank hbar hblank] at hsplit
      have hnil := (List.cons.inj hsplit).1
      rw [Text.trimChars_eq_nil_iff.2 hblank, eq_comm, Text.trimChars_eq_nil_iff] at hnil
      exact hfirst hnil
    have hbranch := startsWithBranch_arrow hleft kept
    rw [hfront] at hbranch
    have hplain : Statement.ofPlain (left ++ '-' :: '>' :: kept) =
        .subscription (String.ofList (Text.trimChars left))
          ((first :: others).map Text.trimChars) := by
      rw [Statement.ofPlain, hbranch, if_neg (by simp), Draft.splitArrow?_append hdash]
      simp only [Statement.ofSubscription, hleft, hsome]
      rw [if_neg (by simp), Source.splitPipes,
        Source.splitTopLevel_trimChars (by decide : IsDelimiter '|')]
      exact congrArg _ hsplit
    have hname : ∀ d tail, left ++ '-' :: '>' :: kept = d :: tail →
        Segment.isNameChar d = true := by
      intro d tail heq
      obtain ⟨more, rfl⟩ := List.head?_eq_some_iff.1 hhead
      cases heq
      rcases mem_pool hleft _ List.mem_cons_self with hname | hblank
      · exact hname
      · rw [hc] at hblank
        cases hblank
    rw [htrim, hfront, Statement.ofChars, hkeyword "import" (by decide),
      hkeyword "use" (by decide), hkeyword "fn" (by decide), hkeyword "let" (by decide)]
    · exact hplain
    -- A line that starts with a name starts with no other mark.
    all_goals
      intro tail heq
      exact absurd (hname _ _ heq) (by decide)

/-- The front of a line that starts at an origin: what stands before the first segment, with the
segments cut out of the rest. -/
def HasFront (origin : Origin) (line : List Char) : Prop :=
  ∃ lead front rest first others, Text.Blank lead ∧ line = lead ++ (front ++ rest) ∧
    pieces '|' .outside 0 none rest = first :: others ∧ origin.Front front first

theorem hasFront_stream {line rest : List Char} {origin : Origin} {segments : List (List Char)}
    {live : Bool} (hcs : Text.trimChars line = (if live then ['~', '?'] else ['~']) ++ rest)
    (hmark : live = false → rest.head? ≠ some '?')
    (hstream : Statement.ofStream live rest = origin.statement segments) :
    origin.HasFront line := by
  have hbar : IsDelimiter '|' := by decide
  obtain ⟨lead, trail, hlead, htrail, hline⟩ := Text.padded_trimChars line
  obtain ⟨first, others, hpieces⟩ :=
    List.exists_cons_of_ne_nil (Source.pieces_ne_nil '|' .outside 0 none (rest ++ trail))
  have hsplit : Source.splitPipes rest = (first :: others).map Text.trimChars := by
    have hsurround := Source.splitTopLevel_surround hbar (List.forall_mem_nil _) htrail rest
    rw [Source.splitPipes, ← hsurround, List.nil_append, splitTopLevel, hpieces]
  have horigin : origin = .stream live (String.ofList (Text.trimChars first)) := by
    rw [Statement.ofStream, hsplit] at hstream
    cases origin with
    | stream live' literal =>
      cases hstream
      rfl
    | subscription pool => cases hstream
  have hquestion : live = false → first.head? ≠ some '?' := by
    intro hlive hhead
    obtain ⟨tail, rfl⟩ := List.head?_eq_some_iff.1 hhead
    have hjoined := (Source.cut_pieces hbar (rest ++ trail)).joinWith_eq
    obtain ⟨more, hmore⟩ := Text.joinWith_cons ['|'] ('?' :: tail) others
    rw [hpieces, hmore] at hjoined
    cases rest with
    | nil =>
      have hmem : '?' ∈ trail := by
        rw [← List.nil_append trail, ← hjoined]
        exact List.mem_cons_self
      exact absurd (htrail '?' hmem) (by decide)
    | cons c rest => exact hmark hlive (congrArg some (List.cons.inj hjoined).1.symm)
  refine ⟨lead, if live then ['~', '?'] else ['~'], rest ++ trail, first, others, hlead, ?_,
    hpieces, ?_⟩
  · rw [hline, hcs, List.append_assoc, List.append_assoc]
  · rw [horigin]
    exact front_stream live hquestion

/-- A subscription has a front if a segment follows the arrow, since the arrow with nothing
behind it is no pipeline. -/
theorem hasFront_subscription {line left right : List Char} {segments : List (List Char)}
    (hcs : Text.trimChars line = left ++ '-' :: '>' :: right)
    (hleft : Segment.isIdentifier (Text.trimChars left) = true)
    (hkeyword : ∀ keyword ∈ ["import", "use", "fn", "let"],
      Statement.keywordRest? keyword (Text.trimChars line) = none)
    (hsplit : segments = Source.splitPipes (Text.trimChars right))
    (hsegments : segments.head? ≠ some []) :
    (Origin.subscription (String.ofList (Text.trimChars left))).HasFront line := by
  have hbar : IsDelimiter '|' := by decide
  obtain ⟨lead, trail, hlead, htrail, hline⟩ := Text.padded_trimChars line
  obtain ⟨first, others, hpieces⟩ :=
    List.exists_cons_of_ne_nil (Source.pieces_ne_nil '|' .outside 0 none (right ++ trail))
  have hfirst : ¬ Text.Blank first := by
    have hsurround := Source.splitTopLevel_surround hbar (List.forall_mem_nil _) htrail right
    rw [Source.splitPipes, Source.splitTopLevel_trimChars hbar, ← hsurround, List.nil_append,
      splitTopLevel, hpieces] at hsplit
    intro hblank
    apply hsegments
    rw [hsplit, List.map_cons, Text.trimChars_eq_nil_iff.2 hblank]
    rfl
  have hhead : ∃ c, left.head? = some c ∧ Text.isBlank c = false := by
    have hne : left ≠ [] := by
      rintro rfl
      cases hleft
    obtain ⟨c, tail, rfl⟩ := List.exists_cons_of_ne_nil hne
    obtain ⟨⟨d, hhead, hd⟩, -⟩ :=
      Text.solid_of_trimmed (Text.trimChars_trimChars line) (by rw [hcs]; simp)
    rw [hcs] at hhead
    cases hhead
    exact ⟨c, rfl, hd⟩
  have hkeywords : ∀ keyword ∈ ["import", "use", "fn", "let"], ∀ rest,
      Statement.keywordRest? keyword (left ++ '-' :: rest) = none := by
    intro keyword hmem rest
    have hdash : ∀ word ∈ ["import", "use", "fn", "let"], '-' ∉ String.toList word := by decide
    have hnone := hkeyword keyword hmem
    rw [hcs] at hnone
    exact Statement.keywordRest?_dash (hdash keyword hmem) hnone rest
  refine ⟨lead, left ++ ['-', '>'], right ++ trail, first, others, hlead, ?_, hpieces, ?_⟩
  · rw [hline, hcs]
    simp
  · exact front_subscription hleft hhead hkeywords hfirst

/-- A line that starts at an origin has a front. -/
theorem exists_front {line : List Char} {origin : Origin} {segments : List (List Char)}
    (h : Statement.ofChars (Text.trimChars line) = origin.statement segments)
    (hsegments : ∀ pool, origin = .subscription pool → segments.head? ≠ some []) :
    origin.HasFront line := by
  obtain ⟨hkeyword, ⟨live, rest, hcs, hmark, hstream⟩ | hplain⟩ := Statement.of_ofChars_eq h
  · exact hasFront_stream hcs hmark hstream
  · obtain ⟨left, right, hcs, hleft, rfl, hsplit⟩ := Statement.of_ofPlain_eq hplain
    exact hasFront_subscription hcs hleft hkeyword hsplit (hsegments _ rfl)

/-- The first line of a broken one starts at the same origin, with the first segments. -/
theorem ofChars_first {line : List Char} {origin : Origin} {segments : List (List Char)}
    (h : Statement.ofChars (Text.trimChars line) = origin.statement segments)
    (hsegments : ∀ pool, origin = .subscription pool → segments.head? ≠ some [])
    {ps more : List (List Char)} (hps : ps ≠ [])
    (hpieces : pieces '|' .outside 0 none line = ps ++ more) :
    ∃ firsts, Statement.ofChars (Text.trimChars (Text.joinWith ['|'] ps)) =
        origin.statement firsts ∧ segments = firsts ++ more.map Text.trimChars ∧
      ∀ s ∈ firsts, Text.trimChars s = s := by
  have hbar : IsDelimiter '|' := by decide
  obtain ⟨lead, front, rest, first, others, hlead, rfl, hrest, hfront⟩ :=
    exists_front h hsegments
  have hpass : ∀ c ∈ lead ++ front, (Source.isQuote c = false ∧ Source.isOpening c = false ∧
      Source.isClosing c = false) ∧ c ≠ '|' ∧ c ≠ '<' :=
    List.forall_mem_append.2 ⟨fun c hc => Source.passes_blank hbar (hlead c hc), hfront.passes⟩
  obtain ⟨piece, ps, rfl⟩ := List.exists_cons_of_ne_nil hps
  rw [← List.append_assoc, Source.pieces_front hpass, hrest, Text.consHead_foldr,
    List.cons_append, List.cons.injEq] at hpieces
  obtain ⟨rfl, rfl⟩ := hpieces
  have hcut : Cut '|' rest ((first :: ps) ++ more) := by
    rw [List.cons_append, ← hrest]
    exact Source.cut_pieces hbar rest
  have htake := (hcut.take (List.cons_ne_nil _ _)).pieces_eq hbar
  have htrim : ∀ tail,
      Text.trimChars (lead ++ (front ++ tail)) = Text.trimChars (front ++ tail) := by
    intro tail
    have hsurround := Text.trimChars_surround hlead (List.forall_mem_nil _) (front ++ tail)
    rwa [List.append_nil] at hsurround
  refine ⟨origin.segments (first :: ps), ?_, ?_, trimmed_segments origin _⟩
  · rw [Text.joinWith_append_head, List.append_assoc, htrim]
    exact hfront.reads _ _ htake
  · rw [htrim, hfront.reads _ _ hrest, segments_append] at h
    exact (statement_inj h).symm

end Draft.Origin

-- ============================================================================
-- Building
-- ============================================================================

/-- Nothing but a branch keyword reads as a branch. -/
theorem Segment.expects?_of_readChars {source : List Char} {segment : Segment}
    (hword : branchOfKeyword? (Text.trimChars source) = none)
    (h : readChars source = .ok segment) : segment.kind.expects? = none := by
  unfold readChars at h
  simp only [hword] at h
  split at h
  · cases h
  · split at h
    · cases h
    · split at h
      · cases h
        rfl
      · split at h
        · split at h
          · cases h
          · split at h
            · cases h
            · cases h
              rfl
        · split at h
          · unfold readCall at h
            simp only at h
            split at h
            · split at h
              · split at h
                · cases h
                  rfl
                · cases h
              · cases h
            · cases h
              rfl
          · cases h

/-- What a logical line with no bracket out of place says. -/
structure Source.Line.Means (line : Source.Line) (statement : Statement) : Prop where
  balanced : Source.isBalanced line.text.toList = true
  statement : Statement.ofChars line.text.toList = statement

/-- A raw line is as balanced as the logical line it is read as. -/
theorem Source.Line.Means.of_raw {raw : List Char} (hraw : Source.isBalanced raw = true)
    {statement : Statement} (h : Statement.ofChars (Text.trimChars raw) = statement)
    (number : Nat) : Means ⟨number, String.ofList (Text.trimChars raw)⟩ statement where
  balanced := by rwa [String.toList_ofList, Source.isBalanced_trimChars]
  statement := by rwa [String.toList_ofList]

/-- The segments behind the bar of a continuation line. -/
def Source.Continuation.segments (c : Continuation) : List (List Char) :=
  c.pieces.map Text.trimChars

/-- A continuation line in which nothing is out of place. -/
structure Source.Continuation.Sound (c : Continuation) : Prop where
  wellFormed : c.WellFormed
  inline : ∀ p ∈ c.pieces, Inline [] p
  pieces : Source.pieces '|' .outside 0 none (Text.joinWith ['|'] c.pieces) = c.pieces

/-- A continuation line has the segments of its pieces. -/
theorem Source.Continuation.Sound.ofChars_line {c : Continuation} (h : c.Sound) :
    Statement.ofChars (Text.trimChars c.line) = .continuation c.segments := by
  have hsolid : Text.Solid ['|'] := ⟨⟨'|', rfl, rfl⟩, '|', rfl, rfl⟩
  obtain ⟨kept, htrim, -, hsplit⟩ := Draft.Origin.exists_kept hsolid h.pieces
  have hsurround := Text.trimChars_surround h.wellFormed.indent.1 (List.forall_mem_nil _)
    (['|'] ++ Text.joinWith ['|'] c.pieces)
  rw [List.append_nil, htrim] at hsurround
  rw [Source.Continuation.line, ← List.singleton_append, hsurround, segments, ← hsplit]
  rfl

/-- So the logical lines that are read from continuation lines go on with these segments. -/
theorem Source.means_of_texts {continuations : List Continuation}
    (h : ∀ c ∈ continuations, c.Sound) {lines : List Source.Line}
    (hlines : lines.map Source.Line.text =
      continuations.map fun c => String.ofList (Text.trimChars c.line)) :
    List.Forall₂ (fun line group => line.Means (.continuation group)) lines
      (continuations.map Continuation.segments) := by
  induction continuations generalizing lines with
  | nil =>
    rw [List.map_nil, List.map_eq_nil_iff] at hlines
    rw [hlines]
    exact .nil
  | cons c continuations ih =>
    obtain ⟨hc, hrest⟩ := List.forall_mem_cons.1 h
    obtain ⟨⟨number, text⟩, others, rfl, rfl, hothers⟩ := List.map_eq_cons_iff.1 hlines
    exact .cons (.of_raw (hc.wellFormed.inline hc.inline).balanced hc.ofChars_line number)
      (ih hrest hothers)

namespace Builder

variable {number : Nat} {b b' : Builder}

/-- Start the pipeline of a line. -/
def startAt (b : Builder) (origin : Draft.Origin) (text : String) (line : Nat) : Builder :=
  match origin with
  | .stream live literal => b.startStream live literal text line
  | .subscription pool => b.startSubscription pool text line

theorem addStatement_statement (b : Builder) (line : Nat) (text : String) (origin : Draft.Origin)
    (segments : List (List Char)) :
    b.addStatement line text (origin.statement segments) =
      (b.startAt origin text line).extend line segments := by
  cases origin <;> rfl

theorem Relaid.startAt (h : b.Relaid number b') (origin : Draft.Origin) (text text' : String) :
    (b.startAt origin text number).Relaid number (b'.startAt origin text' number) := by
  cases origin with
  | stream live literal => exact h.startStream (.inr rfl) live literal number
  | subscription pool => exact h.startSubscription (.inr rfl) pool number

/-- A pipeline starts outside of all branches. -/
theorem current_startAt (b : Builder) (origin : Draft.Origin) (text : String) (line : Nat) :
    ∃ pipeline, (b.startAt origin text line).current = some pipeline ∧
      pipeline.leaveBranches = pipeline := by
  cases origin with
  | stream live literal =>
    cases live with
    | true => exact ⟨_, rfl, rfl⟩
    | false => exact ⟨_, rfl, rfl⟩
  | subscription pool => exact ⟨_, rfl, rfl⟩

theorem extend_of_current {pipeline : OpenPipeline} (h : b.current = some pipeline) (line : Nat)
    (segments : List (List Char)) :
    b.extend line segments =
      { (segments.foldl (addSegment line) (b, pipeline)).1 with
        current := some (segments.foldl (addSegment line) (b, pipeline)).2 } := by
  unfold extend
  rw [h]

/-- No segment but a branch keyword enters a branch. -/
theorem outside_addSegment {state : Builder × OpenPipeline}
    (hstate : state.2.leaveBranches = state.2) {source : List Char}
    (hword : branchOfKeyword? (Text.trimChars source) = none) (line : Nat) :
    (addSegment line state source).2.leaveBranches = (addSegment line state source).2 := by
  obtain ⟨b, pipeline⟩ := state
  have hscope : pipeline.scope = none := (congrArg OpenPipeline.scope hstate).symm
  have hanchor : pipeline.anchor = none := (congrArg OpenPipeline.anchor hstate).symm
  have hcloses : pipeline.closesAtTerminal = false :=
    (congrArg OpenPipeline.closesAtTerminal hstate).symm
  simp only [addSegment]
  split
  · exact hstate
  · next segment hread =>
    rw [if_neg (by simp [Segment.expects?_of_readChars hword hread])]
    simp [addOperator, OpenPipeline.leaveBranches, hscope, hanchor, hcloses]

theorem outside_foldl {state : Builder × OpenPipeline} (hstate : state.2.leaveBranches = state.2)
    {segments : List (List Char)}
    (hwords : ∀ s ∈ segments, branchOfKeyword? (Text.trimChars s) = none) (line : Nat) :
    (segments.foldl (addSegment line) state).2.leaveBranches =
      (segments.foldl (addSegment line) state).2 := by
  induction segments generalizing state with
  | nil => exact hstate
  | cons source segments ih =>
    obtain ⟨hword, hrest⟩ := List.forall_mem_cons.1 hwords
    exact ih (outside_addSegment hstate hword line) hrest

theorem addLine_of_means {line : Source.Line} {statement : Statement}
    (h : line.Means statement) :
    b.addLine line = b.addStatement line.number line.text statement := by
  simp only [addLine, h.balanced, if_true, h.statement]

/-- The lines that go on with a pipeline outside of all branches do what one line with all their
segments does. -/
theorem chained_continuations {state : Builder × OpenPipeline} {pipeline : OpenPipeline}
    (hcurrent : b.current = some pipeline) (hpipeline : pipeline.leaveBranches = pipeline)
    (h : Chained number state (b, pipeline)) {lines : List Source.Line}
    {groups : List (List (List Char))}
    (hlines : List.Forall₂ (fun line group => line.Means (.continuation group)) lines groups)
    (hwords : ∀ s ∈ groups.flatten, branchOfKeyword? (Text.trimChars s) = none) (line : Nat) :
    ∃ last, (lines.foldl addLine b).current = some last ∧
      Chained number (groups.flatten.foldl (addSegment line) state)
        (lines.foldl addLine b, last) := by
  induction hlines generalizing state b pipeline with
  | nil => exact ⟨pipeline, hcurrent, h⟩
  | @cons next group lines groups hnext _ ih =>
    rw [List.flatten_cons, List.forall_mem_append] at hwords
    have hleft : { b with current := b.current.map OpenPipeline.leaveBranches } = b := by
      rw [hcurrent, Option.map_some, hpipeline, ← hcurrent]
    have hadded : b.addLine next = b.extend next.number group := by
      rw [addLine_of_means hnext, addStatement, hleft]
    rw [extend_of_current hcurrent] at hadded
    have hfolded := h.foldl line next.number group
    rw [List.flatten_cons, List.foldl_append, List.foldl_cons, hadded]
    exact ih rfl (outside_foldl hpipeline hwords.1 next.number)
      ⟨hfolded.program, hfolded.pipeline, hfolded.references⟩ hwords.2

/-- A line that starts a pipeline, and the lines it is broken into. -/
theorem Relaid.addBroken (h : b.Relaid number b') {origin : Draft.Origin}
    {text text' : String} {firsts : List (List Char)} {groups : List (List (List Char))}
    {lines : List Source.Line}
    (hwhole : Source.Line.Means ⟨number, text⟩ (origin.statement (firsts ++ groups.flatten)))
    (hfirst : Source.Line.Means ⟨number, text'⟩ (origin.statement firsts))
    (hlines : List.Forall₂ (fun line group => line.Means (.continuation group)) lines groups)
    (hwords : ∀ s ∈ firsts ++ groups.flatten, branchOfKeyword? (Text.trimChars s) = none) :
    (b.addLine ⟨number, text⟩).Relaid number
      (lines.foldl Builder.addLine (b'.addLine ⟨number, text'⟩)) := by
  have hstarted := h.startAt origin text text'
  obtain ⟨pipeline, hcurrent, hpipeline⟩ := current_startAt b' origin text' number
  rw [List.forall_mem_append] at hwords
  have hadded : b.addLine ⟨number, text⟩ =
      (b.startAt origin text number).extend number (firsts ++ groups.flatten) := by
    rw [addLine_of_means hwhole, addStatement_statement]
  have hadded' : b'.addLine ⟨number, text'⟩ =
      (b'.startAt origin text' number).extend number firsts := by
    rw [addLine_of_means hfirst, addStatement_statement]
  rw [extend_of_current (hstarted.current.symm.trans hcurrent), List.foldl_append] at hadded
  rw [extend_of_current hcurrent] at hadded'
  have hfolded := (hstarted.chained pipeline).foldl number number firsts
  have hopen : Chained number (firsts.foldl (addSegment number)
        (b.startAt origin text number, pipeline))
      (b'.addLine ⟨number, text'⟩,
        (firsts.foldl (addSegment number) (b'.startAt origin text' number, pipeline)).2) := by
    rw [hadded']
    exact ⟨hfolded.program, hfolded.pipeline, hfolded.references⟩
  obtain ⟨last, hlast, hchained⟩ := chained_continuations (congrArg Builder.current hadded')
    (outside_foldl hpipeline hwords.1 number) hopen hlines hwords.2 number
  rw [hadded]
  exact ⟨hchained.program, hlast.trans (congrArg some hchained.pipeline), hchained.references⟩

end Builder

-- ============================================================================
-- Whole sources
-- ============================================================================

/-- A stream or a subscription without branches, and the subscription with a first segment. -/
def Statement.Unbranched : Statement → Prop
  | .stream _ _ segments => ∀ s ∈ segments, branchOfKeyword? s = none
  | .subscription _ segments =>
    segments.head? ≠ some [] ∧ ∀ s ∈ segments, branchOfKeyword? s = none
  | _ => False

instance : DecidablePred Statement.Unbranched
  | .stream _ _ segments =>
    inferInstanceAs (Decidable (∀ s ∈ segments, branchOfKeyword? s = none))
  | .subscription _ segments => inferInstanceAs (Decidable
      (segments.head? ≠ some [] ∧ ∀ s ∈ segments, branchOfKeyword? s = none))
  | .importLibrary _ _ | .function _ | .pool _ _ | .continuation _ | .branch _ | .malformed _ =>
    isFalse id

/-- A line of a source that can be broken before its bars: a stream or a subscription without
branches, whose pieces are balanced and without comments. -/
structure Source.Breakable (line : List Char) : Prop where
  statement : (Statement.ofChars (Text.trimChars line)).Unbranched
  balanced : ∀ piece ∈ pieces '|' .outside 0 none line, Source.isBalanced piece = true
  unbroken : ∀ piece ∈ pieces '|' .outside 0 none line, Source.unbroken .outside piece = true

theorem Statement.Unbranched.exists_origin {statement : Statement} (h : statement.Unbranched) :
    ∃ (origin : Draft.Origin) (segments : List (List Char)),
      statement = origin.statement segments ∧
      (∀ pool, origin = .subscription pool → segments.head? ≠ some []) ∧
      ∀ s ∈ segments, branchOfKeyword? s = none := by
  cases statement with
  | stream live literal segments =>
    refine ⟨.stream live literal, segments, rfl, fun pool heq => ?_, h⟩
    cases heq
  | subscription pool segments => exact ⟨.subscription pool, segments, rfl, fun _ _ => h.1, h.2⟩
  | _ => exact h.elim

/-- A line that starts a pipeline is not blank. -/
theorem Draft.Origin.not_blank {line : List Char} {origin : Draft.Origin}
    {segments : List (List Char)}
    (h : Statement.ofChars (Text.trimChars line) = origin.statement segments) :
    ¬ Text.Blank line := by
  intro hblank
  rw [Text.trimChars_eq_nil_iff.2 hblank] at h
  have hstarts := Statement.starts_statement origin segments
  exact (h ▸ hstarts : Statement.Starts (.malformed _))

/-- What the parts of a broken line say: the first line has the first segments, each continuation
line has its own, and together they are those of the whole line. -/
theorem Source.Breakable.exists_origin {line : List Char} (h : Source.Breakable line)
    {first : List (List Char)} {continuations : List Continuation} (hfirst : first ≠ [])
    (hwell : ∀ c ∈ continuations, c.WellFormed)
    (hpieces : pieces '|' .outside 0 none line =
      first ++ continuations.flatMap Continuation.pieces) :
    ∃ (origin : Draft.Origin) (firsts : List (List Char)),
      (Inline [] line ∧ Statement.ofChars (Text.trimChars line) =
        origin.statement (firsts ++ (continuations.map Continuation.segments).flatten)) ∧
      (Inline [] (Text.joinWith ['|'] first) ∧
        Statement.ofChars (Text.trimChars (Text.joinWith ['|'] first)) =
          origin.statement firsts) ∧
      (∀ c ∈ continuations, c.Sound) ∧
      ∀ s ∈ firsts ++ (continuations.map Continuation.segments).flatten,
        branchOfKeyword? (Text.trimChars s) = none := by
  have hcut : Cut '|' line (first ++ continuations.flatMap Continuation.pieces) := by
    rw [← hpieces]
    exact Source.cut_pieces (by decide) line
  have hinline : ∀ p ∈ first ++ continuations.flatMap Continuation.pieces, Inline [] p := by
    rw [← hpieces]
    exact fun p hp => ⟨h.balanced p hp, List.forall_mem_nil _, h.unbroken p hp⟩
  have hwhole : Inline [] line := hcut.joinWith_eq ▸ Source.inline_bars hinline
  rw [List.forall_mem_append] at hinline
  have hsound : ∀ c ∈ continuations, c.Sound := fun c hc =>
    ⟨hwell c hc, fun p hp => hinline.2 p (List.mem_flatMap.2 ⟨c, hc, hp⟩),
      Continuation.pieces_eq hcut hc (hwell c hc).pieces⟩
  have hgroups : (continuations.map Continuation.segments).flatten =
      (continuations.flatMap Continuation.pieces).map Text.trimChars := by
    rw [List.map_flatMap, List.flatMap_def]
    rfl
  obtain ⟨origin, segments, hstatement, hsegments, hwords⟩ := h.statement.exists_origin
  obtain ⟨firsts, hfirsts, rfl, htrimmed⟩ :=
    Draft.Origin.ofChars_first hstatement hsegments hfirst hpieces
  rw [← hgroups] at hstatement hwords
  refine ⟨origin, firsts, ⟨hwhole, hstatement⟩, ⟨Source.inline_bars hinline.1, hfirsts⟩, hsound,
    fun s hs => ?_⟩
  have htrim : Text.trimChars s = s := by
    rcases List.mem_append.1 hs with hmem | hmem
    · exact htrimmed s hmem
    · rw [hgroups] at hmem
      obtain ⟨p, -, rfl⟩ := List.mem_map.1 hmem
      exact Text.trimChars_trimChars p
  rw [htrim]
  exact hwords s hs

namespace Builder

/-- The builder before the first line, which has reported a comment that never ends. -/
def begin (open? : Option Nat) : Builder :=
  match open? with
  | some line => ({} : Builder).warn line .unterminatedComment
  | none => {}

theorem relaid_begin (number : Nat) {open? open?' : Option Nat}
    (h : open?'.isSome = open?.isSome) : (begin open?).Relaid number (begin open?') := by
  cases open? with
  | none =>
    rw [Option.isSome_none, Option.isSome_eq_false_iff, Option.isNone_iff_eq_none] at h
    rw [h]
    exact .refl number _
  | some line =>
    obtain ⟨line', rfl⟩ := Option.isSome_iff_exists.1 h
    exact (Relaid.refl number {}).warn line line' _

end Builder

namespace Program

open Source (scanLines)

theorem parse_eq_finish (source : String) :
    parse source = ((Source.scan source).lines.foldl Builder.addLine
      (.begin (Source.scan source).unterminated)).finish := rfl

/-- A source in which a stream or a subscription without branches is broken before some of its
bars builds the same graph, with the same warnings, but for line numbers and the text of the
root. Between the lines it is broken into, there may be blank lines and comments. -/
theorem parse_breaks {source source' : String} {before after lines : List (List Char)}
    {line : List Char} (hsource : Text.lines source.toList = before ++ line :: after)
    (hsource' : Text.lines source'.toList = before ++ (lines ++ after))
    (hbefore : (scanLines 1 none before).unterminated = none) (hline : Source.Breakable line)
    (hbreaks : Breaks line lines) :
    (parse source).Relaid (1 + before.length) (parse source') := by
  obtain ⟨first, continuations, hfirst, hwell, hpieces, rfl⟩ := hbreaks
  obtain ⟨origin, firsts, ⟨hwhole, hsays⟩, ⟨hhead, hfirsts⟩, hsound, hwords⟩ :=
    hline.exists_origin hfirst hwell hpieces
  -- The logical lines: the same ones above, the parts of the line, and the same texts below.
  have hscan := Source.scanLines_at hbefore hwhole.unbroken (Draft.Origin.not_blank hsays) after
  have hscan' := Source.scanLines_at hbefore hhead.unbroken (Draft.Origin.not_blank hfirsts)
    (continuations.flatMap Continuation.lines ++ after)
  have hpositive : 0 < 1 + before.length + 1 := Nat.succ_pos _
  obtain ⟨htexts, hopen⟩ := Source.scanLines_continuations
    (fun c hc => ⟨(hsound c hc).wellFormed, (hsound c hc).inline⟩) hpositive after
  obtain ⟨hbelow, hopenBelow⟩ := Source.scanLines_down hpositive after
  rw [← hbelow, List.map_eq_append_iff] at htexts
  obtain ⟨broken, below, hlines, hbroken, hrest⟩ := htexts
  rw [hlines] at hscan'
  -- What they build.
  have hbegin := Builder.relaid_begin (1 + before.length) (hopen.trans hopenBelow.symm)
  have habove := hbegin.foldl (rfl : (scanLines 1 none before).lines.map Source.Line.text = _)
  have hadded := habove.addBroken (.of_raw hwhole.balanced hsays _)
    (.of_raw hhead.balanced hfirsts _) (Source.means_of_texts hsound hbroken) hwords
  rw [parse_eq_finish, parse_eq_finish, Source.scan, Source.scan, hsource, hsource',
    List.cons_append, hscan, hscan']
  simp only [List.foldl_append, List.foldl_cons]
  exact (hadded.foldl hrest).finish

/-- A source that has its pipelines on a line each, one of them with an empty segment. -/
def longLines : String :=
  "let total = <|> 0\n~ [1, 2] | map \x7b.value | add(1)\x7d | | to_pool(total)\ntotal -> print"

/-- The same source with a broken line. -/
def shortLines : String :=
  "let total = <|> 0\n~ [1, 2] \n# each\n\n  | map \x7b.value | add(1)\x7d | \n" ++
    "| to_pool(total)\ntotal -> print"

/-- The empty segment is reported, wherever the line is broken. -/
theorem parse_breaks_short :
    (parse longLines).warnings.length = 1 ∧ (parse longLines).Relaid 2 (parse shortLines) := by
  let line := "~ [1, 2] | map \x7b.value | add(1)\x7d | | to_pool(total)".toList
  let continuations : List Continuation :=
    [⟨["# each".toList, []], [' ', ' '], [" map \x7b.value | add(1)\x7d ".toList, [' ']]⟩,
      ⟨[], [], [" to_pool(total)".toList]⟩]
  have hline : Source.Breakable line :=
    ⟨by decide +kernel, by decide +kernel, by decide +kernel⟩
  have hwell : ∀ c ∈ continuations, c.WellFormed := by
    have hall : ∀ c ∈ continuations, (c.indent.all fun x => x == ' ') = true := by decide +kernel
    have hindent : ∀ c ∈ continuations, ∀ x ∈ c.indent, x = ' ' := by
      intro c hc x hx
      simpa using List.all_eq_true.1 (hall c hc) x hx
    have hrest : ∀ c ∈ continuations, scanLines 1 none c.above = ⟨[], none⟩ ∧ c.pieces ≠ [] := by
      decide +kernel
    intro c hc
    refine ⟨(hrest c hc).1, ⟨fun x hx => ?_, fun hx => ?_⟩, (hrest c hc).2⟩
    · rw [hindent c hc x hx]
      rfl
    · exact absurd (hindent c hc '\n' hx) (by decide)
  have hbreaks : Breaks line ("~ [1, 2] ".toList :: continuations.flatMap Continuation.lines) :=
    ⟨["~ [1, 2] ".toList], continuations, by simp, hwell, by decide +kernel, rfl⟩
  have hlong : Text.lines longLines.toList =
      ["let total = <|> 0".toList] ++ line :: ["total -> print".toList] := by
    decide +kernel
  have hshort : Text.lines shortLines.toList = ["let total = <|> 0".toList] ++
      (("~ [1, 2] ".toList :: continuations.flatMap Continuation.lines) ++
        ["total -> print".toList]) := by
    decide +kernel
  exact ⟨by decide +kernel, parse_breaks hlong hshort (by decide +kernel) hline hbreaks⟩

end Program

end Sluice
