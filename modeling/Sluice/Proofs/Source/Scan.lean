/-
  Sluice.Proofs.Source.Scan

  The logical lines of two sources, one written below the other. String literals end with their
  line, so all that a scan carries from one line to the next is the block comment that is open.
  Where the first source leaves none open, the lines of the second are scanned as they are on
  their own, and only their numbers are larger.

  The last line of the first source is one line in either text, though a line feed stands behind
  it in one of them: an empty line is no logical line, and a carriage return is a blank.
-/

import Sluice.Proofs.Source.Pieces
import Sluice.Proofs.Text.Cut
import Sluice.Source.Scan

namespace Sluice

-- ============================================================================
-- Lines of text
-- ============================================================================

namespace Text

/-- What is followed by more pieces was ended by a line feed. -/
theorem closeLines_append (ended : List (List Char)) {more : List (List Char)} (h : more ≠ []) :
    lines.closeLines (ended ++ more) =
      ended.map lines.stripReturn ++ lines.closeLines more := by
  induction ended with
  | nil => rfl
  | cons line ended ih =>
    obtain ⟨next, others, hmore⟩ : ∃ next others, ended ++ more = next :: others := by
      cases hcons : ended ++ more with
      | nil => exact absurd (List.append_eq_nil_iff.1 hcons).2 h
      | cons next others => exact ⟨next, others, rfl⟩
    rw [List.cons_append, hmore, lines.closeLines, ← hmore, ih]
    · rfl
    · simp

/-- A blank at the end is trimmed away. -/
theorem trimChars_concat_blank (cs : List Char) {c : Char} (hc : isBlank c = true) :
    trimChars (cs ++ [c]) = trimChars cs := by
  have hend : ∀ ds : List Char, dropEndWhile isBlank (ds ++ [c]) = dropEndWhile isBlank ds := by
    intro ds
    rw [dropEndWhile, dropEndWhile, List.reverse_concat, List.dropWhile_cons_of_pos hc]
  rw [trimChars, trimChars, trimWhile, trimWhile, List.dropWhile_append]
  split
  · next hblank =>
    rw [List.isEmpty_iff.1 hblank, List.dropWhile_cons_of_pos hc, List.dropWhile_nil]
  · exact hend _

end Text

-- ============================================================================
-- Scanning on
-- ============================================================================

namespace Source

/-- The same lines further down in a longer text. -/
def Line.below (count : Nat) (line : Line) : Line :=
  { line with number := line.number + count }

/-- Where a line stands matters only to the number of a comment that it opens. -/
theorem stripLine_below (count number : Nat) (block : Option Nat) (q : Quoting) (cs : List Char) :
    stripLine (number + count) (block.map (· + count)) q cs =
      ((stripLine number block q cs).1, (stripLine number block q cs).2.map (· + count)) := by
  fun_induction stripLine number block q cs with
  | case1 block q => rfl
  | case2 block q c hblock => simp [stripLine, hblock]
  | case3 block q c hblock hcomment => simp [stripLine, hblock, hcomment]
  | case4 block q c hblock hcomment => simp [stripLine, hblock, hcomment]
  | case5 block q c d rest hblock hclose ih =>
    rw [stripLine, if_pos (by simpa using hblock), if_pos hclose, ← Option.map_none, ih]
    rfl
  | case6 block q c d rest hblock hclose ih =>
    rw [stripLine, if_pos (by simpa using hblock), if_neg hclose, ih]
  | case7 block q c d rest hblock hcomment => simp [stripLine, hblock, hcomment]
  | case8 block q c d rest hblock hcomment hopen ih =>
    rw [stripLine, if_neg (by simpa using hblock), if_neg hcomment, if_pos hopen]
    exact ih
  | case9 block q c d rest hblock hcomment hopen ih =>
    rw [stripLine, if_neg (by simpa using hblock), if_neg hcomment, if_neg hopen,
      ← Option.map_none, ih]
    rfl

/-- So lines further down are the same lines with larger numbers. -/
theorem scanLines_below (count number : Nat) (block : Option Nat) (raws : List (List Char)) :
    scanLines (number + count) (block.map (· + count)) raws =
      ⟨(scanLines number block raws).lines.map (Line.below count),
        (scanLines number block raws).unterminated.map (· + count)⟩ := by
  induction raws generalizing number block with
  | nil => rfl
  | cons raw rest ih =>
    have hrest := ih (number + 1) (stripLine number block .outside raw).2
    rw [Nat.add_right_comm] at hrest
    rw [scanLines, scanLines, stripLine_below]
    simp only
    rw [hrest]
    split
    · rfl
    · rfl

/-- The scan of some lines goes on with the comment that they leave open. -/
theorem scanLines_append (number : Nat) (block : Option Nat) (first second : List (List Char)) :
    scanLines number block (first ++ second) =
      ⟨(scanLines number block first).lines ++
          (scanLines (number + first.length) (scanLines number block first).unterminated
            second).lines,
        (scanLines (number + first.length) (scanLines number block first).unterminated
          second).unterminated⟩ := by
  induction first generalizing number block with
  | nil => rfl
  | cons raw first ih =>
    have hnumber : number + (raw :: first).length = number + 1 + first.length := by
      rw [List.length_cons]
      omega
    rw [List.cons_append, scanLines, scanLines, hnumber]
    simp only
    rw [ih]
    split
    · rfl
    · rfl

/-- A carriage return at the end of a line changes nothing but the blanks at its end. -/
theorem stripLine_return (number : Nat) (block : Option Nat) (q : Quoting) (cs : List Char) :
    (stripLine number block q (cs ++ ['\r'])).2 = (stripLine number block q cs).2 ∧
      ((stripLine number block q (cs ++ ['\r'])).1 = (stripLine number block q cs).1 ∨
        (stripLine number block q (cs ++ ['\r'])).1 =
          (stripLine number block q cs).1 ++ ['\r']) := by
  fun_induction stripLine number block q cs with
  | case1 block q => cases block <;> simp [stripLine]
  | case2 block q c hblock => simp [stripLine, hblock]
  | case3 block q c hblock hcomment => simp [stripLine, hblock, hcomment]
  | case4 block q c hblock hcomment => simp [stripLine, hblock, hcomment, keep]
  | case5 block q c d rest hblock hclose ih =>
    simpa [stripLine, hblock, hclose, keep] using ih
  | case6 block q c d rest hblock hclose ih =>
    rw [List.cons_append, List.cons_append, stripLine, if_pos hblock, if_neg hclose]
    exact ih
  | case7 block q c d rest hblock hcomment => simp [stripLine, hblock, hcomment]
  | case8 block q c d rest hblock hcomment hopen ih =>
    rw [List.cons_append, List.cons_append, stripLine, if_neg hblock, if_neg hcomment,
      if_pos hopen]
    exact ih
  | case9 block q c d rest hblock hcomment hopen ih =>
    rw [List.cons_append, List.cons_append, stripLine, if_neg hblock, if_neg hcomment,
      if_neg hopen]
    simpa [keep] using ih

/-- A line may lose the carriage return at its end. -/
theorem scanLines_stripReturn (number : Nat) (block : Option Nat) (raw : List Char) :
    scanLines number block [Text.lines.stripReturn raw] = scanLines number block [raw] := by
  rw [Text.lines.stripReturn]
  split
  · next hlast =>
    obtain ⟨start, rfl⟩ := List.getLast?_eq_some_iff.1 hlast
    obtain ⟨hblock, hkept⟩ := stripLine_return number block .outside start
    have htext : Text.trimChars (stripLine number block .outside (start ++ ['\r'])).1 =
        Text.trimChars (stripLine number block .outside start).1 := by
      rcases hkept with hkept | hkept
      · rw [hkept]
      · rw [hkept, Text.trimChars_concat_blank _ (by decide)]
    rw [List.dropLast_concat]
    simp only [scanLines]
    rw [htext, hblock]
  · rfl

/-- The pieces of a text, each ended by a line feed, are scanned like its lines. -/
theorem scanLines_pieces (cs : List Char) :
    scanLines 1 none ((Text.splitAtChar '\n' cs).map Text.lines.stripReturn) =
      scanLines 1 none (Text.lines cs) := by
  obtain ⟨ended, last, hpieces⟩ : ∃ ended last, Text.splitAtChar '\n' cs = ended ++ [last] :=
    ⟨_, _, (List.dropLast_concat_getLast (Text.splitAtChar_ne_nil '\n' cs)).symm⟩
  rw [Text.lines, hpieces, Text.closeLines_append ended (List.cons_ne_nil last []),
    List.map_append, List.map_singleton, scanLines_append, scanLines_append,
    scanLines_stripReturn]
  cases last with
  | nil => rfl
  | cons c last => rfl

/-- Scanning two sources, one below the other, is scanning each of them, where the first leaves
no comment open. -/
theorem scan_append {first : String} (hclosed : (scan first).unterminated = none)
    (second : String) :
    scan (first ++ "\n" ++ second) =
      ⟨(scan first).lines ++
          (scan second).lines.map (Line.below (first.toList.count '\n' + 1)),
        (scan second).unterminated.map (· + (first.toList.count '\n' + 1))⟩ := by
  have htext : (first ++ "\n" ++ second).toList = first.toList ++ '\n' :: second.toList := by
    simp
  have hcount : ((Text.splitAtChar '\n' first.toList).map Text.lines.stripReturn).length =
      first.toList.count '\n' + 1 := by
    rw [List.length_map, Text.length_splitAtChar]
  have hscan : scanLines 1 none
      ((Text.splitAtChar '\n' first.toList).map Text.lines.stripReturn) = scan first :=
    scanLines_pieces first.toList
  have hbelow := scanLines_below (first.toList.count '\n' + 1) 1 none (Text.lines second.toList)
  rw [scan, htext, Text.lines, Text.splitAtChar_append,
    Text.closeLines_append _ (Text.splitAtChar_ne_nil '\n' second.toList), scanLines_append,
    hscan, hclosed, hcount]
  rw [Option.map_none] at hbelow
  exact congrArg (fun below : Scanned =>
    (⟨(scan first).lines ++ below.lines, below.unterminated⟩ : Scanned)) hbelow

end Source

end Sluice
