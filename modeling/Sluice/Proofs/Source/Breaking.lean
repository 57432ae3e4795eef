/-
  Sluice.Proofs.Source.Breaking

  A line that is broken before some of its bars. What stands between two breaks are neighbouring
  pieces of the line, and they stay the pieces of the shorter line that is made of them: a piece
  ends outside of brackets and strings, and that is where the next one starts on either line.

  The scanner reads such lines one by one. Blank lines and lines of comments between them are no
  logical lines and leave no comment open, so they do not matter.
-/

import Sluice.Proofs.Source.Splitting

namespace Sluice

-- ============================================================================
-- Blanks around a text
-- ============================================================================

namespace Text

/-- Behind a text without blanks at its ends, trimming takes away blanks at the end only. -/
theorem trimChars_solid_append {front : List Char} (hfront : Solid front) (rest : List Char) :
    ∃ kept after, rest = kept ++ after ∧ Blank after ∧
      trimChars (front ++ rest) = front ++ kept := by
  refine ⟨dropEndWhile isBlank rest, (rest.reverse.takeWhile isBlank).reverse, ?_,
    fun c hc => List.mem_takeWhile_imp (List.mem_reverse.1 hc), ?_⟩
  · rw [dropEndWhile, ← List.reverse_append, List.takeWhile_append_dropWhile,
      List.reverse_reverse]
  · obtain ⟨⟨c, hhead, hc⟩, hlast⟩ := hfront
    have hdrop : (front ++ rest).dropWhile isBlank = front ++ rest :=
      dropWhile_blank_of_head (by rw [List.head?_append, hhead]; rfl) hc
    obtain ⟨d, hlast, hd⟩ := hlast
    rw [← List.head?_reverse] at hlast
    rw [trimChars, trimWhile, hdrop, dropEndWhile, dropEndWhile, List.reverse_append,
      List.dropWhile_append]
    split
    · next hblank =>
      rw [dropWhile_blank_of_head hlast hd, List.isEmpty_iff.1 hblank, List.reverse_reverse,
        List.reverse_nil, List.append_nil]
    · rw [List.reverse_append, List.reverse_reverse]

end Text

namespace Source

-- ============================================================================
-- Neighbouring pieces
-- ============================================================================

theorem isMarker_of_append {before : Option Char} {c : Char} {rest tail : List Char}
    (h : isMarker before c (rest ++ tail) = false) : isMarker before c rest = false := by
  cases rest with
  | nil => simp [isMarker]
  | cons d rest => exact h

namespace Cut

variable {d : Char} {cs : List Char} {ps qs : List (List Char)}

/-- What stands behind a piece that is not the last one. -/
theorem behind {piece : List Char} (h : Cut d cs (piece :: ps)) (hps : ps ≠ []) :
    ∃ rest, pieces d .outside 0 none piece = [piece] ∧
      piece.foldl stand (.outside, 0) = (.outside, 0) ∧
      isMarker piece.getLast? d rest = false ∧ Cut d rest ps := by
  cases h with
  | last _ => exact absurd rfl hps
  | more hsingle hplace hmarker hrest => exact ⟨_, hsingle, hplace, hmarker, hrest⟩

/-- The first pieces of a text, with delimiters between them, have these pieces. -/
theorem take (h : Cut d cs (ps ++ qs)) (hps : ps ≠ []) : Cut d (Text.joinWith [d] ps) ps := by
  induction ps generalizing cs with
  | nil => exact absurd rfl hps
  | cons piece ps ih =>
    cases ps with
    | nil => exact .last (h.single piece List.mem_cons_self)
    | cons next ps =>
      obtain ⟨rest, hsingle, hplace, hmarker, hbehind⟩ := h.behind (List.cons_ne_nil _ _)
      have hrest : Cut d rest ((next :: ps) ++ qs) := hbehind
      have hnext := ih hrest (List.cons_ne_nil _ _)
      -- What follows starts as before, or nothing is left behind the delimiter.
      obtain ⟨tail, htail⟩ := Text.joinWith_append [d] (next :: ps) qs
      rw [← hrest.joinWith_eq, htail] at hmarker
      rw [Text.joinWith_cons_cons, List.append_assoc, List.singleton_append]
      exact .more hsingle hplace (isMarker_of_append hmarker) hnext

/-- So do the last ones. -/
theorem drop (h : Cut d cs (ps ++ qs)) (hqs : qs ≠ []) : Cut d (Text.joinWith [d] qs) qs := by
  induction ps generalizing cs with
  | nil =>
    rw [List.nil_append] at h
    rwa [h.joinWith_eq]
  | cons piece ps ih =>
    obtain ⟨rest, -, -, -, hrest⟩ := h.behind (List.append_ne_nil_of_right_ne_nil ps hqs)
    exact ih hrest

end Cut

-- ============================================================================
-- Blanks around pieces
-- ============================================================================

/-- Text in front of which a reader stands as at the start, and that ends in no part of a marker,
goes to the first piece. -/
theorem pieces_front {d : Char} {front : List Char}
    (hfront : ∀ c ∈ front, (isQuote c = false ∧ isOpening c = false ∧ isClosing c = false) ∧
      c ≠ d ∧ c ≠ '<') (cs : List Char) :
    pieces d .outside 0 none (front ++ cs) =
      front.foldr Text.consHead (pieces d .outside 0 none cs) := by
  induction front with
  | nil => rfl
  | cons c front ih =>
    obtain ⟨⟨hsilent, hdelimiter, hopens⟩, hrest⟩ := List.forall_mem_cons.1 hfront
    have hne : (c == d) = false := beq_eq_false_iff_ne.2 hdelimiter
    rw [List.cons_append, pieces_cons, separates, hne, Bool.and_false, Bool.false_and,
      Bool.false_and, if_neg (by simp), stand_silent hsilent, pieces_before_ne hopens, ih hrest]
    rfl

section

variable {d : Char} (hd : IsDelimiter d)
include hd

theorem IsDelimiter.ne_of_isBlank {c : Char} (hc : Text.isBlank c = true) : c ≠ d := by
  rintro rfl
  rw [hd.solid] at hc
  cases hc

theorem passes_blank {c : Char} (hc : Text.isBlank c = true) :
    (isQuote c = false ∧ isOpening c = false ∧ isClosing c = false) ∧ c ≠ d ∧ c ≠ '<' := by
  refine ⟨(not_mark_of_isBlank hc).2, hd.ne_of_isBlank hc, ?_⟩
  rintro rfl
  cases hc

/-- Blanks are one piece, wherever they stand. -/
theorem pieces_blank {cs : List Char} (hcs : Text.Blank cs) (q : Quoting) (depth : Nat)
    (before : Option Char) : pieces d q depth before cs = [cs] := by
  refine pieces_eq_singleton_iff.2 fun front c back hsplit => ?_
  have hc : c ∈ cs := hsplit ▸ List.mem_append_right front List.mem_cons_self
  have hne : (c == d) = false := beq_eq_false_iff_ne.2 (hd.ne_of_isBlank (hcs c hc))
  rw [separates, hne, Bool.and_false, Bool.false_and, Bool.false_and]

/-- Blanks behind a text go to its last piece. -/
theorem Cut.concat_blank {cs after : List Char} {ps : List (List Char)} (h : Cut d cs ps)
    (hafter : Text.Blank after) :
    ∃ qs, Cut d (cs ++ after) qs ∧ qs.map Text.trimChars = ps.map Text.trimChars := by
  induction h with
  | @last piece hsingle =>
    refine ⟨[piece ++ after], .last ?_, ?_⟩
    · rw [pieces_append hsingle, pieces_blank hd hafter, Text.consHead_foldr]
    · have htrim := Text.trimChars_surround (List.forall_mem_nil _) hafter piece
      rw [List.map_singleton, List.map_singleton, ← htrim, List.nil_append]
  | @more piece rest others hsingle hplace hmarker _ ih =>
    obtain ⟨qs, hqs, htrim⟩ := ih
    refine ⟨piece :: qs, ?_, by rw [List.map_cons, List.map_cons, htrim]⟩
    rw [List.append_assoc, List.cons_append]
    refine .more hsingle hplace ?_ hqs
    cases rest with
    | cons c rest => exact hmarker
    | nil =>
      cases after with
      | nil => exact hmarker
      | cons c after =>
        have hc := hafter c List.mem_cons_self
        have hne : (c == '>') = false := by
          rw [beq_eq_false_iff_ne]
          rintro rfl
          cases hc
        simp [isMarker, hne]

/-- Splitting does not depend on blanks around the text. -/
theorem splitTopLevel_surround {before after : List Char} (hbefore : Text.Blank before)
    (hafter : Text.Blank after) (cs : List Char) :
    splitTopLevel d (before ++ (cs ++ after)) = splitTopLevel d cs := by
  obtain ⟨qs, hqs, htrim⟩ := (cut_pieces hd cs).concat_blank hd hafter
  rw [splitTopLevel, splitTopLevel, pieces_front fun c hc => passes_blank hd (hbefore c hc),
    hqs.pieces_eq hd, ← htrim]
  obtain ⟨piece, others, rfl⟩ := List.exists_cons_of_ne_nil hqs.ne_nil
  have hpiece := Text.trimChars_surround hbefore (List.forall_mem_nil _) piece
  rw [List.append_nil] at hpiece
  rw [Text.consHead_foldr, List.map_cons, List.map_cons, hpiece]

/-- In particular a text is split as it is when it is trimmed. -/
theorem splitTopLevel_trimChars (cs : List Char) :
    splitTopLevel d (Text.trimChars cs) = splitTopLevel d cs := by
  obtain ⟨before, after, hbefore, hafter, hcs⟩ := Text.padded_trimChars cs
  rw [List.append_assoc] at hcs
  rw [← splitTopLevel_surround hd hbefore hafter, ← hcs]

end

-- ============================================================================
-- Broken lines
-- ============================================================================

/-- A continuation line: the lines above it, its indentation, and the pieces behind its bar. -/
structure Continuation where
  above : List (List Char)
  indent : List Char
  pieces : List (List Char)

namespace Continuation

/-- The line itself. -/
def line (c : Continuation) : List Char :=
  c.indent ++ '|' :: Text.joinWith ['|'] c.pieces

/-- The line with those above it. -/
def lines (c : Continuation) : List (List Char) :=
  c.above ++ [c.line]

/-- Above the line there are only blank lines and comments, and every comment is closed. -/
structure WellFormed (c : Continuation) : Prop where
  above : scanLines 1 none c.above = ⟨[], none⟩
  indent : Text.Blank c.indent ∧ '\n' ∉ c.indent
  pieces : c.pieces ≠ []

end Continuation

/-- The lines that a line is broken into before some of its bars. -/
def Breaks (line : List Char) (lines : List (List Char)) : Prop :=
  ∃ (first : List (List Char)) (continuations : List Continuation),
    first ≠ [] ∧ (∀ c ∈ continuations, c.WellFormed) ∧
    pieces '|' .outside 0 none line = first ++ continuations.flatMap Continuation.pieces ∧
    lines = Text.joinWith ['|'] first :: continuations.flatMap Continuation.lines

/-- Pieces between bars can be written into a line. -/
theorem inline_bars {ps : List (List Char)} (h : ∀ p ∈ ps, Inline [] p) :
    Inline [] (Text.joinWith ['|'] ps) :=
  Inline.joinWith (by decide) (by decide) h

theorem Continuation.WellFormed.inline {c : Continuation} (h : c.WellFormed)
    (hpieces : ∀ p ∈ c.pieces, Inline [] p) : Inline [] c.line := by
  have hindent : isPlain [] c.indent = true := by
    rw [isPlain_iff]
    refine fun x hx => ⟨fun hmark => ?_, List.not_mem_nil⟩
    have hblank := h.indent.1 x hx
    have hne : x ≠ '\n' := fun heq => h.indent.2 (heq ▸ hx)
    simp only [marks, List.mem_cons, List.not_mem_nil, or_false] at hmark
    rcases hmark with rfl | rfl | rfl | rfl | rfl | rfl | rfl | rfl | rfl | rfl | rfl
    all_goals first | exact hne rfl | cases hblank
  have hbar : Inline [] (['|'] ++ Text.joinWith ['|'] c.pieces) :=
    Inline.plain_append (by decide) (inline_bars hpieces)
  exact Inline.plain_append hindent hbar

/-- Behind the bar of a continuation line are its pieces. -/
theorem Continuation.pieces_eq {line : List Char} {first : List (List Char)}
    {continuations : List Continuation}
    (h : Cut '|' line (first ++ continuations.flatMap Continuation.pieces)) {c : Continuation}
    (hc : c ∈ continuations) (hne : c.pieces ≠ []) :
    Source.pieces '|' .outside 0 none (Text.joinWith ['|'] c.pieces) = c.pieces := by
  obtain ⟨before, after, rfl⟩ := List.append_of_mem hc
  rw [List.flatMap_append, List.flatMap_cons, ← List.append_assoc] at h
  exact ((h.drop (List.append_ne_nil_of_left_ne_nil hne _)).take hne).pieces_eq (by decide)

theorem Continuation.not_blank (c : Continuation) : ¬ Text.Blank c.line := fun h =>
  absurd (h '|' (List.mem_append_right c.indent List.mem_cons_self)) (by decide)

-- ============================================================================
-- Scanning broken lines
-- ============================================================================

/-- A line without comments is one logical line. -/
theorem scanLines_line {cs : List Char} (h : unbroken .outside cs = true)
    (hsolid : ¬ Text.Blank cs) (number : Nat) (rest : List (List Char)) :
    scanLines number none (cs :: rest) =
      ⟨⟨number, String.ofList (Text.trimChars cs)⟩ :: (scanLines (number + 1) none rest).lines,
        (scanLines (number + 1) none rest).unterminated⟩ := by
  have hne : (Text.trimChars cs).isEmpty = false := by
    rw [List.isEmpty_eq_false_iff, ne_eq, Text.trimChars_eq_nil_iff]
    exact hsolid
  rw [scanLines, stripLine_of_unbroken number h]
  simp only [hne, Bool.false_eq_true, if_false]

/-- Further down lines are scanned as they are at the start. -/
theorem scanLines_down {number : Nat} (hnumber : 0 < number) (raws : List (List Char)) :
    (scanLines number none raws).lines.map Line.text =
        (scanLines 1 none raws).lines.map Line.text ∧
      (scanLines number none raws).unterminated.isSome =
        (scanLines 1 none raws).unterminated.isSome := by
  obtain ⟨k, rfl⟩ := Nat.exists_eq_add_of_le hnumber
  have hbelow := scanLines_below k 1 none raws
  rw [Option.map_none] at hbelow
  rw [hbelow]
  simp [Function.comp_def, Line.below]

/-- Blank lines and comments are passed over. -/
theorem scanLines_above {above : List (List Char)} (h : scanLines 1 none above = ⟨[], none⟩)
    {number : Nat} (hnumber : 0 < number) : scanLines number none above = ⟨[], none⟩ := by
  obtain ⟨hlines, hblock⟩ := scanLines_down hnumber above
  rw [h] at hlines hblock
  cases hscan : scanLines number none above with
  | mk lines unterminated =>
    rw [hscan] at hlines hblock
    cases lines with
    | cons line lines => cases hlines
    | nil =>
      cases unterminated with
      | some line => cases hblock
      | none => rfl

/-- The scan of a source at a line without comments. -/
theorem scanLines_at {before : List (List Char)}
    (hbefore : (scanLines 1 none before).unterminated = none) {line : List Char}
    (hline : unbroken .outside line = true) (hsolid : ¬ Text.Blank line)
    (after : List (List Char)) :
    scanLines 1 none (before ++ line :: after) =
      ⟨(scanLines 1 none before).lines ++
          ⟨1 + before.length, String.ofList (Text.trimChars line)⟩ ::
            (scanLines (1 + before.length + 1) none after).lines,
        (scanLines (1 + before.length + 1) none after).unterminated⟩ := by
  rw [scanLines_append, hbefore, scanLines_line hline hsolid]

/-- Continuation lines are logical lines, and nothing above them is. -/
theorem scanLines_continuations {continuations : List Continuation}
    (h : ∀ c ∈ continuations, c.WellFormed ∧ ∀ p ∈ c.pieces, Inline [] p) {number : Nat}
    (hnumber : 0 < number) (after : List (List Char)) :
    (scanLines number none (continuations.flatMap Continuation.lines ++ after)).lines.map
          Line.text =
        continuations.map (fun c => String.ofList (Text.trimChars c.line)) ++
          (scanLines 1 none after).lines.map Line.text ∧
      (scanLines number none
          (continuations.flatMap Continuation.lines ++ after)).unterminated.isSome =
        (scanLines 1 none after).unterminated.isSome := by
  induction continuations generalizing number with
  | nil => exact scanLines_down hnumber after
  | cons c continuations ih =>
    obtain ⟨⟨hc, hpieces⟩, hrest⟩ := List.forall_mem_cons.1 h
    have hline := scanLines_line (hc.inline hpieces).unbroken c.not_blank
      (number + c.above.length) (continuations.flatMap Continuation.lines ++ after)
    obtain ⟨hlines, hblock⟩ := ih hrest (Nat.succ_pos (number + c.above.length))
    rw [List.flatMap_cons, Continuation.lines, List.append_assoc, List.append_assoc,
      scanLines_append, scanLines_above hc.above hnumber, List.singleton_append, hline]
    exact ⟨congrArg (List.cons _) hlines, hblock⟩

end Source

end Sluice
