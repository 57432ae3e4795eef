/-
  Sluice.Proofs.Source.Stripping

  What a scan takes out of a source, and that a second scan finds nothing more to take out.

  A line is made up of stretches: characters of code, string literals and comments. `Reads` says
  which stretches may follow each other, without reference to the scanner; every line can be read
  in this way, and the scanner keeps of it what its stretches keep. A comment that is closed on a
  line keeps a space, so no two characters come together that could start another one.

  A literal that is not closed ends with its line, and the blanks at its end are those at the end
  of the line.
-/

import Sluice.Proofs.Source.Breaking

namespace Sluice

-- ============================================================================
-- Trimming
-- ============================================================================

namespace Text

/-- Blanks at the end belong to what they are the end of. -/
theorem dropEndWhile_append {back : List Char} (hback : ¬ Blank back) (front : List Char) :
    dropEndWhile isBlank (front ++ back) = front ++ dropEndWhile isBlank back := by
  have hne : ¬ (back.reverse.dropWhile isBlank).isEmpty = true := by
    rw [List.isEmpty_iff, List.dropWhile_eq_nil_iff]
    exact fun h => hback fun c hc => h c (List.mem_reverse.2 hc)
  rw [dropEndWhile, dropEndWhile, List.reverse_append, List.dropWhile_append, if_neg hne,
    List.reverse_append, List.reverse_reverse]

/-- Trimming reaches as far as the first character that is no blank. -/
theorem exists_trimChars {back : List Char} {c : Char} (hhead : back.head? = some c)
    (hc : isBlank c = false) (front : List Char) :
    ∃ kept, trimChars (front ++ back) = kept ++ dropEndWhile isBlank back := by
  have hback : ¬ Blank back := by
    intro hblank
    rw [hblank c (List.mem_of_head? hhead)] at hc
    cases hc
  rw [trimChars, trimWhile, List.dropWhile_append]
  split
  · refine ⟨[], ?_⟩
    rw [dropWhile_blank_of_head hhead hc, List.nil_append]
  · exact ⟨front.dropWhile isBlank, dropEndWhile_append hback _⟩

/-- What neither starts nor ends with a blank is not trimmed. -/
theorem Solid.infix_trimChars {text : List Char} (h : Solid text) (front back : List Char) :
    text <:+: trimChars (front ++ (text ++ back)) := by
  obtain ⟨⟨c, hhead, hc⟩, hlast⟩ := h
  have hhead' : (text ++ back).head? = some c := by
    rw [List.head?_append, hhead]
    rfl
  obtain ⟨kept, htrim⟩ := exists_trimChars hhead' hc front
  obtain ⟨more, after, -, -, hmore⟩ := trimChars_solid_append ⟨⟨c, hhead, hc⟩, hlast⟩ back
  rw [trimChars, trimWhile, dropWhile_blank_of_head hhead' hc] at hmore
  rw [htrim, hmore]
  exact ⟨kept, more, by rw [List.append_assoc]⟩

/-- No newline is part of a line. -/
theorem not_mem_lines (cs : List Char) : ∀ line ∈ lines cs, '\n' ∉ line := by
  have hstrip : ∀ line, '\n' ∉ line → '\n' ∉ lines.stripReturn line := by
    intro line hline
    rw [lines.stripReturn]
    split
    · exact fun h => hline ((List.dropLast_sublist line).subset h)
    · exact hline
  have hclose : ∀ pieces : List (List Char), (∀ piece ∈ pieces, '\n' ∉ piece) →
      ∀ line ∈ lines.closeLines pieces, '\n' ∉ line := by
    intro pieces hpieces
    fun_induction lines.closeLines pieces with
    | case1 => exact List.forall_mem_nil _
    | case2 rest hempty => exact List.forall_mem_nil _
    | case3 rest hrest => exact hpieces
    | case4 line more hmore ih =>
      obtain ⟨hline, hrest⟩ := List.forall_mem_cons.1 hpieces
      exact List.forall_mem_cons.2 ⟨hstrip line hline, ih hrest⟩
  exact hclose _ (not_mem_splitAtChar '\n' cs)

end Text

namespace Source

-- ============================================================================
-- Stretches
-- ============================================================================

/-- A stretch of a line. -/
inductive Stretch where
  /-- A character outside of literals and comments. -/
  | code (c : Char)
  /-- A string literal with its quotes. -/
  | literal (cs : List Char)
  /-- A string literal that is still open at the end of the line. -/
  | unclosed (cs : List Char)
  /-- A block comment up to its end, or what stands of it on the line. -/
  | block (cs : List Char)
  /-- A comment, or what stands of it on the line, that takes the rest of the line. -/
  | comment (cs : List Char)
deriving Repr, DecidableEq

namespace Stretch

/-- A stretch as it is written. -/
@[simp]
def written : Stretch → List Char
  | code c => [c]
  | literal cs | unclosed cs | block cs | comment cs => cs

/-- What is left of a stretch without the comments. -/
@[simp]
def left : Stretch → List Char
  | code c => [c]
  | literal cs | unclosed cs => cs
  | block _ => [' ']
  | comment _ => []

end Stretch

/-- Stretches as they are written. -/
def written (stretches : List Stretch) : List Char :=
  stretches.flatMap Stretch.written

/-- What is left of stretches. -/
def left (stretches : List Stretch) : List Char :=
  stretches.flatMap Stretch.left

@[simp]
theorem written_nil : written [] = [] := rfl

@[simp]
theorem written_cons (stretch : Stretch) (rest : List Stretch) :
    written (stretch :: rest) = stretch.written ++ written rest := rfl

@[simp]
theorem left_nil : left [] = [] := rfl

@[simp]
theorem left_cons (stretch : Stretch) (rest : List Stretch) :
    left (stretch :: rest) = stretch.left ++ left rest := rfl

/-- The end of a block comment. -/
def blockEnd : List Char := ['*', '/']

/-- The content of a string literal that is not closed; a backslash may stand at its end. -/
def OpenBody (quote : Char) (body : List Char) : Prop :=
  StringBody quote body ∨ ∃ front, body = front ++ ['\\'] ∧ StringBody quote front

/-- The stretches of line `number`, between the block comment that is open before it and the one
that is open behind it, each given by the line on which it starts. -/
inductive Reads (number : Nat) : Option Nat → List Stretch → Option Nat → Prop
  | nil : Reads number none [] none
  | code {c rest still} : isQuote c = false → startsComment (c :: written rest) = false →
    Reads number none rest still → Reads number none (.code c :: rest) still
  | literal {quote body rest still} : isQuote quote = true → StringBody quote body →
    Reads number none rest still →
    Reads number none (.literal (quote :: (body ++ [quote])) :: rest) still
  | unclosed {quote body} : isQuote quote = true → OpenBody quote body →
    Reads number none [.unclosed (quote :: body)] none
  | hash {cs} : Reads number none [.comment ('#' :: cs)] none
  | slashes {cs} : Reads number none [.comment ('/' :: '/' :: cs)] none
  | block {body rest still} : ¬ blockEnd <:+: body → Reads number none rest still →
    Reads number none (.block ('/' :: '*' :: (body ++ blockEnd)) :: rest) still
  | opening {body} : ¬ blockEnd <:+: body →
    Reads number none [.comment ('/' :: '*' :: body)] (some number)
  | closing {start body rest still} : ¬ blockEnd <:+: body → Reads number none rest still →
    Reads number (some start) (.block (body ++ blockEnd) :: rest) still
  | inside {start cs} : ¬ blockEnd <:+: cs →
    Reads number (some start) [.comment cs] (some start)

/-- The stretches of consecutive lines, the first of which has number `number`. -/
inductive ReadsLines : Nat → Option Nat → List (List Stretch) → Option Nat → Prop
  | nil {number block} : ReadsLines number block [] block
  | line {number block stretches still rest last} : Reads number block stretches still →
    ReadsLines (number + 1) still rest last → ReadsLines number block (stretches :: rest) last

-- ============================================================================
-- Every line can be read
-- ============================================================================

/-- Behind an opening quote a literal is closed, or it is open to the end. -/
theorem closes_or_open (quote : Char) (cs : List Char) :
    (∃ body rest, cs = body ++ quote :: rest ∧ StringBody quote body) ∨ OpenBody quote cs := by
  match cs with
  | [] => exact .inr (.inl .nil)
  | c :: cs =>
    by_cases hslash : c = '\\'
    · subst hslash
      match cs with
      | [] => exact .inr (.inr ⟨[], rfl, .nil⟩)
      | d :: cs =>
        rcases closes_or_open quote cs with ⟨body, rest, rfl, hbody⟩ | hopen | ⟨front, rfl, hfront⟩
        · exact .inl ⟨'\\' :: d :: body, rest, rfl, .escape hbody⟩
        · exact .inr (.inl (.escape hopen))
        · exact .inr (.inr ⟨'\\' :: d :: front, rfl, .escape hfront⟩)
    · by_cases hquote : c = quote
      · exact .inl ⟨[], cs, by rw [hquote]; rfl, .nil⟩
      · rcases closes_or_open quote cs with ⟨body, rest, rfl, hbody⟩ | hopen | ⟨front, rfl, hfront⟩
        · exact .inl ⟨c :: body, rest, rfl, .char hslash hquote hbody⟩
        · exact .inr (.inl (.char hslash hquote hopen))
        · exact .inr (.inr ⟨c :: front, rfl, .char hslash hquote hfront⟩)

/-- A block comment ends where its end comes first, or it is open to the end. -/
theorem ends_or_open (cs : List Char) :
    (∃ body rest, cs = body ++ blockEnd ++ rest ∧ ¬ blockEnd <:+: body) ∨
      ¬ blockEnd <:+: cs := by
  induction cs with
  | nil => exact .inr (by simp [blockEnd])
  | cons c cs ih =>
    by_cases hend : blockEnd <+: c :: cs
    · obtain ⟨rest, hrest⟩ := hend
      exact .inl ⟨[], rest, hrest.symm, by simp [blockEnd]⟩
    · rcases ih with ⟨body, rest, rfl, hbody⟩ | hopen
      · refine .inl ⟨c :: body, rest, rfl, fun hin => ?_⟩
        rcases List.infix_cons_iff.1 hin with hfront | hin
        · refine hend (hfront.trans ?_)
          rw [List.append_assoc]
          exact List.prefix_append (c :: body) _
        · exact hbody hin
      · refine .inr fun hin => ?_
        rcases List.infix_cons_iff.1 hin with hfront | hin
        · exact hend hfront
        · exact hopen hin

/-- Every line is made up of stretches. -/
theorem exists_reads (number : Nat) (block : Option Nat) (cs : List Char) :
    ∃ stretches still, Reads number block stretches still ∧ written stretches = cs := by
  match block with
  | some start =>
    rcases ends_or_open cs with ⟨body, rest, hcs, hbody⟩ | hopen
    · have hlength : rest.length < cs.length := by simp [hcs, blockEnd]; omega
      obtain ⟨stretches, still, hreads, hwritten⟩ := exists_reads number none rest
      exact ⟨_, still, .closing hbody hreads, by rw [hcs, ← hwritten]; rfl⟩
    · exact ⟨_, _, .inside hopen, by simp⟩
  | none =>
    match cs with
    | [] => exact ⟨[], none, .nil, rfl⟩
    | c :: cs =>
      by_cases hquote : isQuote c = true
      · rcases closes_or_open c cs with ⟨body, rest, hcs, hbody⟩ | hopen
        · have hlength : rest.length < (c :: cs).length := by simp [hcs]; omega
          obtain ⟨stretches, still, hreads, hwritten⟩ := exists_reads number none rest
          refine ⟨_, still, .literal hquote hbody hreads, ?_⟩
          rw [hcs, ← hwritten]
          simp
        · exact ⟨_, _, .unclosed hquote hopen, by simp⟩
      · by_cases hcomment : startsComment (c :: cs) = true
        · unfold startsComment at hcomment
          split at hcomment
          · next heq =>
            cases heq
            exact ⟨[.comment ('#' :: cs)], none, .hash, by simp⟩
          · next rest heq =>
            cases heq
            exact ⟨[.comment ('/' :: '/' :: rest)], none, .slashes, by simp⟩
          · next rest heq =>
            cases heq
            rcases ends_or_open rest with ⟨body, rest, rfl, hbody⟩ | hopen
            · obtain ⟨stretches, still, hreads, hwritten⟩ := exists_reads number none rest
              refine ⟨_, still, .block hbody hreads, ?_⟩
              rw [← hwritten]
              simp
            · exact ⟨_, _, .opening hopen, by simp⟩
          · cases hcomment
        · obtain ⟨stretches, still, hreads, hwritten⟩ := exists_reads number none cs
          rw [Bool.not_eq_true] at hquote hcomment
          refine ⟨.code c :: stretches, still, .code hquote ?_ hreads, ?_⟩
          · rw [hwritten, hcomment]
          · rw [← hwritten]
            rfl
termination_by cs.length
decreasing_by all_goals simp_all [blockEnd] <;> omega

theorem exists_readsLines (number : Nat) (block : Option Nat) (raws : List (List Char)) :
    ∃ layout still, ReadsLines number block layout still ∧ layout.map written = raws := by
  induction raws generalizing number block with
  | nil => exact ⟨[], block, .nil, rfl⟩
  | cons raw raws ih =>
    obtain ⟨stretches, still, hreads, rfl⟩ := exists_reads number block raw
    obtain ⟨layout, last, hlayout, rfl⟩ := ih (number + 1) still
    exact ⟨stretches :: layout, last, .line hreads hlayout, rfl⟩

-- ============================================================================
-- The scanner keeps what its stretches keep
-- ============================================================================

section stripLine

variable (number : Nat)

/-- Within a literal every character is kept. -/
theorem stripLine_quoted {q : Quoting} (hq : q ≠ .outside) (c : Char) (cs : List Char) :
    stripLine number none q (c :: cs) = keep c (stripLine number none (q.after c) cs) := by
  cases cs with
  | nil => simp [stripLine, hq, keep]
  | cons d cs => simp [stripLine, hq]

theorem stripLine_body {quote : Char} {body : List Char} (h : StringBody quote body)
    (rest : List Char) :
    stripLine number none (.inside quote) (body ++ rest) =
      (body ++ (stripLine number none (.inside quote) rest).1,
        (stripLine number none (.inside quote) rest).2) := by
  induction h with
  | nil => rfl
  | @escape c body _ ih =>
    rw [List.cons_append, List.cons_append, stripLine_quoted number (by simp), Quoting.after_slash,
      stripLine_quoted number (by simp), Quoting.after_escaped, ih]
    rfl
  | @char c body hslash hquote _ ih =>
    rw [List.cons_append, stripLine_quoted number (by simp), Quoting.after_char hslash hquote, ih]
    rfl

theorem stripLine_open {quote : Char} {body : List Char} (h : OpenBody quote body) :
    stripLine number none (.inside quote) body = (body, none) := by
  rcases h with hbody | ⟨front, rfl, hfront⟩
  · have hstrip := stripLine_body number hbody []
    rw [List.append_nil] at hstrip
    rw [hstrip, stripLine, List.append_nil]
  · rw [stripLine_body number hfront, stripLine_quoted number (by simp), stripLine]
    rfl

/-- Outside of literals and comments a character is kept. -/
theorem stripLine_code {c : Char} {cs : List Char} (hcomment : startsComment (c :: cs) = false) :
    stripLine number none .outside (c :: cs) =
      keep c (stripLine number none (Quoting.outside.after c) cs) := by
  have hhash : c ≠ '#' := by
    rintro rfl
    cases hcomment
  cases cs with
  | nil => simp [stripLine, hhash, keep]
  | cons d cs =>
    have hslash : ¬ (c = '/' ∧ d = '/') := by
      rintro ⟨rfl, rfl⟩
      cases hcomment
    have hstar : ¬ (c = '/' ∧ d = '*') := by
      rintro ⟨rfl, rfl⟩
      cases hcomment
    simp [stripLine, hhash, hslash, hstar]

theorem not_startsComment_of_isQuote {c : Char} (hc : isQuote c = true) (cs : List Char) :
    startsComment (c :: cs) = false := by
  rcases eq_of_isQuote hc with rfl | rfl <;> rfl

/-- From a block comment the scanner comes back behind the comment's end. -/
theorem stripLine_closing {start : Nat} {body : List Char} (h : ¬ blockEnd <:+: body)
    (q : Quoting) (rest : List Char) :
    stripLine number (some start) q (body ++ blockEnd ++ rest) =
      keep ' ' (stripLine number none .outside rest) := by
  induction body with
  | nil => simp [stripLine, blockEnd]
  | cons c body ih =>
    have hbody : ¬ blockEnd <:+: body := fun hin => h (List.infix_cons_iff.2 (.inr hin))
    have hend : ∀ d more, body ++ blockEnd ++ rest = d :: more → ¬ (c = '*' ∧ d = '/') := by
      rintro d more heq ⟨rfl, rfl⟩
      cases body with
      | nil => cases heq
      | cons d body =>
        cases heq
        exact h (List.infix_cons_iff.2 (.inl (List.prefix_append blockEnd body)))
    rw [← ih hbody]
    cases hmore : body ++ blockEnd ++ rest with
    | nil => simp [blockEnd] at hmore
    | cons d more =>
      rw [List.cons_append, List.cons_append, hmore, stripLine, if_pos Option.isSome_some,
        if_neg (hend d more hmore)]

/-- A block comment without an end takes the rest of the line. -/
theorem stripLine_inside {start : Nat} {cs : List Char} (h : ¬ blockEnd <:+: cs) (q : Quoting) :
    stripLine number (some start) q cs = ([], some start) := by
  induction cs with
  | nil => rfl
  | cons c cs ih =>
    cases cs with
    | nil => rfl
    | cons d cs =>
      have hend : ¬ (c = '*' ∧ d = '/') := by
        rintro ⟨rfl, rfl⟩
        exact h (List.infix_cons_iff.2 (.inl (List.prefix_append blockEnd cs)))
      rw [stripLine, if_pos Option.isSome_some, if_neg hend]
      exact ih fun hin => h (List.infix_cons_iff.2 (.inr hin))

/-- The scanner keeps of a line what its stretches keep. -/
theorem stripLine_of_reads {block still : Option Nat} {stretches : List Stretch}
    (h : Reads number block stretches still) :
    stripLine number block .outside (written stretches) = (left stretches, still) := by
  induction h with
  | nil => rfl
  | @code c rest still hquote hcomment _ ih =>
    have hstrip := stripLine_code number hcomment
    rw [Quoting.outside_after hquote, ih] at hstrip
    exact hstrip
  | @literal quote body rest still hquote hbody _ ih =>
    have hwritten : written (.literal (quote :: (body ++ [quote])) :: rest) =
        quote :: (body ++ quote :: written rest) := by simp
    rw [hwritten, stripLine_code number (not_startsComment_of_isQuote hquote _),
      Quoting.outside_after_quote hquote, stripLine_body number hbody,
      stripLine_quoted number (by simp), Quoting.after_quote hquote, ih]
    simp [keep]
  | @unclosed quote body hquote hbody =>
    have hwritten : written [.unclosed (quote :: body)] = quote :: body := by
      simp
    rw [hwritten, stripLine_code number (not_startsComment_of_isQuote hquote _),
      Quoting.outside_after_quote hquote, stripLine_open number hbody]
    simp [keep]
  | @hash cs => cases cs <;> simp [stripLine]
  | slashes => simp [stripLine]
  | @block body rest still hbody _ ih =>
    have hwritten : written (.block ('/' :: '*' :: (body ++ blockEnd)) :: rest) =
        '/' :: '*' :: (body ++ blockEnd ++ written rest) := by simp
    rw [hwritten, stripLine, if_neg (by simp), if_neg (by simp), if_pos (by simp),
      stripLine_closing number hbody, ih]
    rfl
  | @opening body hbody =>
    have hwritten : written [.comment ('/' :: '*' :: body)] = '/' :: '*' :: body := by
      simp
    rw [hwritten, stripLine, if_neg (by simp), if_neg (by simp), if_pos (by simp),
      stripLine_inside number hbody]
    rfl
  | @closing start body rest still hbody _ ih =>
    have hwritten : written (.block (body ++ blockEnd) :: rest) =
        body ++ blockEnd ++ written rest := by simp
    rw [hwritten, stripLine_closing number hbody, ih]
    rfl
  | @inside start cs hcs =>
    have hwritten : written [.comment cs] = cs := by simp
    rw [hwritten, stripLine_inside number hcs]
    rfl

end stripLine

/-- The logical line that is left of a line, unless nothing but blanks is left of it. -/
def line? (number : Nat) (stretches : List Stretch) : Option Line :=
  let text := Text.trimChars (left stretches)
  if text.isEmpty then none else some ⟨number, String.ofList text⟩

theorem scanLines_of_reads {number : Nat} {block last : Option Nat} {layout : List (List Stretch)}
    (h : ReadsLines number block layout last) :
    scanLines number block (layout.map written) =
      ⟨(layout.zipIdx number).filterMap fun (stretches, number) => line? number stretches,
        last⟩ := by
  induction h with
  | nil => rfl
  | @line number block stretches still rest last hreads _ ih =>
    rw [List.map_cons, scanLines, stripLine_of_reads number hreads, List.zipIdx_cons,
      List.filterMap_cons]
    simp only
    rw [ih]
    by_cases hempty : (Text.trimChars (left stretches)).isEmpty = true
    · have hline : line? number stretches = none := if_pos hempty
      rw [if_pos hempty, hline]
    · have hline : line? number stretches = some ⟨number, _⟩ := if_neg hempty
      rw [if_neg hempty, hline]

-- ============================================================================
-- No comment is left
-- ============================================================================

theorem unbroken_outside_cons {c : Char} {rest : List Char} :
    unbroken .outside (c :: rest) = true ↔
      c ≠ '\n' ∧ startsComment (c :: rest) = false ∧
        unbroken (Quoting.outside.after c) rest = true := by
  simp [unbroken, and_assoc]

theorem unbroken_quoted_cons {q : Quoting} (hq : q ≠ .outside) (c : Char) (rest : List Char) :
    unbroken q (c :: rest) = unbroken (q.after c) rest := by
  simp [unbroken, hq]

theorem unbroken_body {quote : Char} {body : List Char} (h : StringBody quote body)
    (rest : List Char) :
    unbroken (.inside quote) (body ++ rest) = unbroken (.inside quote) rest := by
  induction h with
  | nil => rfl
  | escape _ ih =>
    rw [List.cons_append, List.cons_append, unbroken_quoted_cons (by simp), Quoting.after_slash,
      unbroken_quoted_cons (by simp), Quoting.after_escaped, ih]
  | char hslash hquote _ ih =>
    rw [List.cons_append, unbroken_quoted_cons (by simp), Quoting.after_char hslash hquote, ih]

theorem unbroken_open {quote : Char} {body : List Char} (h : OpenBody quote body) :
    unbroken (.inside quote) body = true := by
  rcases h with hbody | ⟨front, rfl, hfront⟩
  · have hrest := unbroken_body hbody []
    rw [List.append_nil] at hrest
    rw [hrest]
    rfl
  · rw [unbroken_body hfront, unbroken_quoted_cons (by simp)]
    rfl

theorem startsComment_of_head {c : Char} {rest : List Char} (hhash : c ≠ '#')
    (hslash : c = '/' → rest.head? ≠ some '/' ∧ rest.head? ≠ some '*') :
    startsComment (c :: rest) = false := by
  unfold startsComment
  split
  · next heq =>
    cases heq
    exact absurd rfl hhash
  · next heq =>
    cases heq
    exact absurd rfl (hslash rfl).1
  · next heq =>
    cases heq
    exact absurd rfl (hslash rfl).2
  · rfl

/-- Whether a comment starts shows in two characters. -/
theorem startsComment_congr {c d : Char} {rest others : List Char}
    (h : startsComment (c :: d :: rest) = false) : startsComment (c :: d :: others) = false := by
  refine startsComment_of_head ?_ ?_
  · rintro rfl
    cases h
  · rintro rfl
    refine ⟨?_, ?_⟩
    all_goals
      intro hd
      cases hd
      cases h

/-- What is left behind a character starts a comment with it only if what is written there does:
it starts with the same character, or with the space for a comment. -/
theorem startsComment_left {number : Nat} {rest : List Stretch} {still : Option Nat}
    (h : Reads number none rest still) {c : Char}
    (hcomment : startsComment (c :: written rest) = false) :
    startsComment (c :: left rest) = false := by
  have hhash : c ≠ '#' := by
    rintro rfl
    cases hcomment
  cases h with
  | nil => exact hcomment
  | code _ _ _ | literal _ _ _ | unclosed _ _ => exact startsComment_congr hcomment
  | hash | slashes | opening _ | block _ _ =>
    exact startsComment_of_head hhash fun _ => by simp

/-- Outside of literals no comment starts in what is left of a line. -/
theorem unbroken_left {number : Nat} {block still : Option Nat} {stretches : List Stretch}
    (h : Reads number block stretches still) (hline : '\n' ∉ written stretches) :
    unbroken .outside (left stretches) = true := by
  have hspace : ∀ {rest : List Stretch}, unbroken .outside (left rest) = true →
      unbroken .outside (' ' :: left rest) = true := fun hrest =>
    unbroken_outside_cons.2 ⟨by decide,
      startsComment_of_head (by decide) fun hc => absurd hc (by decide), hrest⟩
  induction h with
  | nil | hash | slashes | opening _ | inside _ => rfl
  | @code c rest still hquote hcomment hreads ih =>
    rw [written_cons, List.mem_append, not_or] at hline
    refine unbroken_outside_cons.2 ⟨fun hc => hline.1 ?_, startsComment_left hreads hcomment, ?_⟩
    · rw [hc]
      exact List.mem_cons_self
    · rw [Quoting.outside_after hquote]
      exact ih hline.2
  | @literal quote body rest still hquote hbody _ ih =>
    rw [written_cons, List.mem_append, not_or] at hline
    have hleft : left (.literal (quote :: (body ++ [quote])) :: rest) =
        quote :: (body ++ quote :: left rest) := by simp
    rw [hleft]
    refine unbroken_outside_cons.2 ⟨?_, not_startsComment_of_isQuote hquote _, ?_⟩
    · rintro rfl
      cases hquote
    · rw [Quoting.outside_after_quote hquote, unbroken_body hbody,
        unbroken_quoted_cons (by simp), Quoting.after_quote hquote]
      exact ih hline.2
  | @unclosed quote body hquote hbody =>
    have hleft : left [.unclosed (quote :: body)] = quote :: body := by simp
    rw [hleft]
    refine unbroken_outside_cons.2 ⟨?_, not_startsComment_of_isQuote hquote _, ?_⟩
    · rintro rfl
      cases hquote
    · rw [Quoting.outside_after_quote hquote]
      exact unbroken_open hbody
  | block _ _ ih | closing _ _ ih =>
    rw [written_cons, List.mem_append, not_or] at hline
    exact hspace (ih hline.2)

theorem unbroken_of_append {q : Quoting} {cs back : List Char}
    (h : unbroken q (cs ++ back) = true) : unbroken q cs = true := by
  induction cs generalizing q with
  | nil => rfl
  | cons c cs ih =>
    cases q with
    | outside =>
      obtain ⟨hnewline, hcomment, hrest⟩ := unbroken_outside_cons.1 h
      refine unbroken_outside_cons.2 ⟨hnewline, ?_, ih hrest⟩
      cases cs with
      | nil =>
        refine startsComment_of_head ?_ (by simp)
        rintro rfl
        cases hcomment
      | cons d cs => exact startsComment_congr hcomment
    | inside quote =>
      rw [List.cons_append, unbroken_quoted_cons (by simp)] at h
      rw [unbroken_quoted_cons (by simp)]
      exact ih h
    | escaped quote =>
      rw [List.cons_append, unbroken_quoted_cons (by simp)] at h
      rw [unbroken_quoted_cons (by simp)]
      exact ih h

/-- Trimming joins nothing, so it starts no comment either. -/
theorem unbroken_trimChars {cs : List Char} (h : unbroken .outside cs = true) :
    unbroken .outside (Text.trimChars cs) = true := by
  have hblank : ∀ before rest : List Char, Text.Blank before →
      unbroken .outside (before ++ rest) = true → unbroken .outside rest = true := by
    intro before rest hbefore hunbroken
    induction before with
    | nil => exact hunbroken
    | cons c before ih =>
      obtain ⟨hc, hrest⟩ := List.forall_mem_cons.1 hbefore
      have hafter := (unbroken_outside_cons.1 hunbroken).2.2
      rw [Quoting.outside_after (not_mark_of_isBlank hc).2.1] at hafter
      exact ih hrest hafter
  obtain ⟨before, after, hbefore, -, hcs⟩ := Text.padded_trimChars cs
  rw [hcs, List.append_assoc] at h
  exact unbroken_of_append (hblank before _ hbefore h)

-- ============================================================================
-- Literals are kept
-- ============================================================================

theorem left_append (front back : List Stretch) : left (front ++ back) = left front ++ left back :=
  List.flatMap_append

theorem Reads.solid_literal {number : Nat} {block still : Option Nat} {stretches : List Stretch}
    (h : Reads number block stretches still) {cs : List Char} (hcs : .literal cs ∈ stretches) :
    Text.Solid cs := by
  induction h with
  | nil => cases hcs
  | @literal quote body rest still hquote _ _ ih =>
    rcases List.mem_cons.1 hcs with heq | hcs
    · cases heq
      have hblank := isBlank_of_isQuote hquote
      exact Text.solid_brackets hblank hblank body
    · exact ih hcs
  | code _ _ _ ih | block _ _ ih | closing _ _ ih =>
    rcases List.mem_cons.1 hcs with heq | hcs
    · cases heq
    · exact ih hcs
  | unclosed _ _ | hash | slashes | opening _ | inside _ =>
    rw [List.mem_singleton] at hcs
    cases hcs

/-- A literal is part of the logical line as it is written. -/
theorem Reads.literal_kept {number : Nat} {block still : Option Nat} {stretches : List Stretch}
    (h : Reads number block stretches still) {cs : List Char} (hcs : .literal cs ∈ stretches) :
    cs <:+: Text.trimChars (left stretches) := by
  have hsolid := h.solid_literal hcs
  obtain ⟨front, back, rfl⟩ := List.append_of_mem hcs
  rw [left_append, left_cons]
  exact hsolid.infix_trimChars (left front) (left back)

/-- A literal that is not closed takes the rest of the line. -/
theorem Reads.unclosed_last {number : Nat} {block still : Option Nat} {stretches : List Stretch}
    (h : Reads number block stretches still) {cs : List Char} (hcs : .unclosed cs ∈ stretches) :
    ∃ front quote, stretches = front ++ [.unclosed cs] ∧ cs.head? = some quote ∧
      Text.isBlank quote = false := by
  induction h with
  | nil => cases hcs
  | @unclosed quote body hquote _ =>
    rw [List.mem_singleton] at hcs
    cases hcs
    exact ⟨[], quote, rfl, rfl, isBlank_of_isQuote hquote⟩
  | @code _ rest _ _ _ _ ih | @literal _ _ rest _ _ _ _ ih | @block _ rest _ _ _ ih
  | @closing _ _ rest _ _ _ ih =>
    rcases List.mem_cons.1 hcs with heq | hcs
    · cases heq
    · obtain ⟨front, quote, rfl, hquote⟩ := ih hcs
      exact ⟨_ :: front, quote, rfl, hquote⟩
  | hash | slashes | opening _ | inside _ =>
    rw [List.mem_singleton] at hcs
    cases hcs

/-- Of a literal that is not closed only blanks at its end are lost. -/
theorem Reads.unclosed_kept {number : Nat} {block still : Option Nat} {stretches : List Stretch}
    (h : Reads number block stretches still) {cs : List Char} (hcs : .unclosed cs ∈ stretches) :
    Text.dropEndWhile Text.isBlank cs <:+: Text.trimChars (left stretches) := by
  obtain ⟨front, quote, rfl, hhead, hquote⟩ := h.unclosed_last hcs
  obtain ⟨kept, htrim⟩ := Text.exists_trimChars hhead hquote (left front)
  rw [left_append, left_cons, left_nil, List.append_nil, Stretch.left, htrim]
  exact (List.suffix_append kept _).isInfix

-- ============================================================================
-- Scanning again
-- ============================================================================

/-- What may stand on a line of its own: trimmed text that is not empty, on one line and without
comments. -/
structure Clean (text : List Char) : Prop where
  nonempty : text ≠ []
  trimmed : Text.trimChars text = text
  single : '\n' ∉ text
  unbroken : Source.unbroken .outside text = true

namespace Clean

variable {text : List Char}

theorem not_blank (h : Clean text) : ¬ Text.Blank text := by
  rw [← Text.trimChars_eq_nil_iff, h.trimmed]
  exact h.nonempty

/-- A carriage return is a blank, so none stands at the end. -/
theorem stripReturn (h : Clean text) : Text.lines.stripReturn text = text := by
  rw [Text.lines.stripReturn, if_neg]
  intro hlast
  obtain ⟨start, rfl⟩ := List.getLast?_eq_some_iff.1 hlast
  have htrim := h.trimmed
  rw [Text.trimChars_concat_blank start (by decide)] at htrim
  obtain ⟨before, after, -, -, hstart⟩ := Text.padded_trimChars start
  rw [htrim] at hstart
  have hlength := congrArg List.length hstart
  simp only [List.length_append, List.length_singleton] at hlength
  omega

end Clean

theorem scanLines_clean {texts : List (List Char)} (h : ∀ text ∈ texts, Clean text)
    (number : Nat) :
    (scanLines number none texts).lines.map Line.text = texts.map String.ofList ∧
      (scanLines number none texts).unterminated = none := by
  induction texts generalizing number with
  | nil => exact ⟨rfl, rfl⟩
  | cons text texts ih =>
    obtain ⟨htext, hrest⟩ := List.forall_mem_cons.1 h
    obtain ⟨hlines, hnone⟩ := ih hrest (number + 1)
    rw [scanLines_line htext.unbroken htext.not_blank, htext.trimmed]
    exact ⟨by rw [List.map_cons, List.map_cons, hlines], hnone⟩

/-- Of lines that have nothing to be taken out a scan gives these lines. -/
theorem scan_clean {texts : List String} (h : ∀ text ∈ texts, Clean text.toList) :
    (scan (Text.join "\n" texts)).lines.map Line.text = texts ∧
      (scan (Text.join "\n" texts)).unterminated = none := by
  cases texts with
  | nil => exact ⟨by decide, by decide⟩
  | cons text texts =>
    have hclean : ∀ cs ∈ (text :: texts).map String.toList, Clean cs := by
      intro cs hcs
      obtain ⟨t, ht, rfl⟩ := List.mem_map.1 hcs
      exact h t ht
    have hpieces : Text.splitAtChar '\n'
          (Text.joinWith ['\n'] (text.toList :: texts.map String.toList)) =
        text.toList :: texts.map String.toList :=
      Text.splitAtChar_joinWith fun cs hcs => (hclean cs hcs).single
    have hstrip : ((text :: texts).map String.toList).map Text.lines.stripReturn =
        (text :: texts).map String.toList :=
      (List.map_congr_left fun cs hcs => (hclean cs hcs).stripReturn).trans (List.map_id' _)
    have hscan : scan (Text.join "\n" (text :: texts)) =
        scanLines 1 none ((text :: texts).map String.toList) := by
      rw [scan, Text.toList_join, ← scanLines_pieces]
      show scanLines 1 none ((Text.splitAtChar '\n' (Text.joinWith ['\n']
        (text.toList :: texts.map String.toList))).map Text.lines.stripReturn) = _
      rw [hpieces]
      exact congrArg (scanLines 1 none) hstrip
    obtain ⟨hlines, hnone⟩ := scanLines_clean hclean 1
    rw [hscan, hlines, List.map_map]
    exact ⟨by simp, hnone⟩

-- ============================================================================
-- What a scan is for
-- ============================================================================

/-- What a scan makes of a source. -/
structure Strips (source : String) (scanned : Scanned) : Prop where
  numbered : scanned.lines.Pairwise fun line later => line.number < later.number
  trimmed : ∀ line ∈ scanned.lines, line.text ≠ "" ∧ Text.trim line.text = line.text
  /-- Outside of string literals no comment starts. -/
  unbroken : ∀ line ∈ scanned.lines, Source.unbroken .outside line.text.toList = true
  /-- Nothing more is taken out of the lines when they are scanned again. -/
  again : (scan (Text.join "\n" (scanned.lines.map Line.text))).lines.map Line.text =
      scanned.lines.map Line.text ∧
    (scan (Text.join "\n" (scanned.lines.map Line.text))).unterminated = none
  /-- The logical lines are what the stretches of the lines leave, trimmed, and literals are kept
  as they are. -/
  stretches : ∃ layout, ReadsLines 1 none layout scanned.unterminated ∧
    layout.map written = Text.lines source.toList ∧
    scanned.lines =
      ((layout.zipIdx 1).filterMap fun (stretches, number) => line? number stretches) ∧
    ∀ stretches ∈ layout, ∀ cs,
      (.literal cs ∈ stretches → cs <:+: Text.trimChars (left stretches)) ∧
      (.unclosed cs ∈ stretches →
        Text.dropEndWhile Text.isBlank cs <:+: Text.trimChars (left stretches))

theorem ReadsLines.exists_reads {number : Nat} {block last : Option Nat}
    {layout : List (List Stretch)} (h : ReadsLines number block layout last) :
    ∀ stretches ∈ layout, ∃ number before after, Reads number before stretches after := by
  induction h with
  | nil => exact List.forall_mem_nil _
  | line hreads _ ih => exact List.forall_mem_cons.2 ⟨⟨_, _, _, hreads⟩, ih⟩

/-- A newline that is not written is not left either. -/
theorem newline_not_mem_left {stretches : List Stretch} (h : '\n' ∉ written stretches) :
    '\n' ∉ left stretches := by
  induction stretches with
  | nil => exact h
  | cons stretch rest ih =>
    rw [written_cons, List.mem_append, not_or] at h
    rw [left_cons, List.mem_append, not_or]
    refine ⟨?_, ih h.2⟩
    cases stretch with
    | code _ | literal _ | unclosed _ => exact h.1
    | block _ | comment _ => simp

/-- What is left of a line is clean. -/
theorem clean_left {number : Nat} {block still : Option Nat} {stretches : List Stretch}
    (h : Reads number block stretches still) (hline : '\n' ∉ written stretches)
    (hne : Text.trimChars (left stretches) ≠ []) : Clean (Text.trimChars (left stretches)) where
  nonempty := hne
  trimmed := Text.trimChars_trimChars _
  single hmem := by
    obtain ⟨before, after, -, -, hleft⟩ := Text.padded_trimChars (left stretches)
    refine newline_not_mem_left hline ?_
    rw [hleft]
    exact List.mem_append_left after (List.mem_append_right before hmem)
  unbroken := unbroken_trimChars (unbroken_left h hline)

/-- The lines that are left of consecutive ones have increasing numbers. -/
theorem pairwise_lines (number : Nat) (layout : List (List Stretch)) :
    ((layout.zipIdx number).filterMap fun (stretches, number) => line? number stretches).Pairwise
      fun line later => line.number < later.number := by
  have hnumber : ∀ {entry : List Stretch × Nat} {line : Line},
      line? entry.2 entry.1 = some line → line.number = entry.2 := by
    intro entry line hline
    simp only [line?] at hline
    split at hline
    · cases hline
    · cases hline
      rfl
  have hzip : (layout.zipIdx number).Pairwise fun entry later => entry.2 < later.2 := by
    refine List.pairwise_map.1 ?_
    rw [List.zipIdx_map_snd]
    exact List.pairwise_lt_range' 1
  refine hzip.filterMap _ fun entry later hlt line hline other hother => ?_
  rw [hnumber hline, hnumber hother]
  exact hlt

/-- In every source a scan takes out the comments, one space for each block that is closed, and
the blanks around each line. What it leaves has no comments any more. -/
theorem scan_strips_comments (source : String) : Strips source (scan source) := by
  obtain ⟨layout, last, hlayout, hwritten⟩ := exists_readsLines 1 none (Text.lines source.toList)
  have hscan := scanLines_of_reads hlayout
  rw [hwritten] at hscan
  change scan source = _ at hscan
  have hreads := hlayout.exists_reads
  have hclean : ∀ line ∈ (scan source).lines, Clean line.text.toList := by
    intro line hmem
    rw [hscan] at hmem
    obtain ⟨⟨stretches, number⟩, hzip, hline⟩ := List.mem_filterMap.1 hmem
    have hstretches : stretches ∈ layout := List.fst_mem_of_mem_zipIdx hzip
    obtain ⟨_, _, _, hread⟩ := hreads stretches hstretches
    have hnewline : '\n' ∉ written stretches := by
      refine Text.not_mem_lines source.toList _ ?_
      rw [← hwritten]
      exact List.mem_map_of_mem hstretches
    simp only [line?] at hline
    split at hline
    · cases hline
    · next hne =>
      cases hline
      rw [String.toList_ofList]
      exact clean_left hread hnewline fun hnil => hne (List.isEmpty_iff.2 hnil)
  constructor
  case numbered =>
    rw [hscan]
    exact pairwise_lines 1 layout
  case trimmed =>
    intro line hmem
    refine ⟨fun hempty => (hclean line hmem).nonempty (by rw [hempty]; rfl), ?_⟩
    rw [Text.trim, (hclean line hmem).trimmed, String.ofList_toList]
  case unbroken => exact fun line hmem => (hclean line hmem).unbroken
  case again =>
    refine scan_clean fun text htext => ?_
    obtain ⟨line, hmem, rfl⟩ := List.mem_map.1 htext
    exact hclean line hmem
  case stretches =>
    refine ⟨layout, by rw [hscan]; exact hlayout, hwritten, by rw [hscan], ?_⟩
    intro stretches hstretches cs
    obtain ⟨_, _, _, hread⟩ := hreads stretches hstretches
    exact ⟨hread.literal_kept, hread.unclosed_kept⟩

end Source

end Sluice
