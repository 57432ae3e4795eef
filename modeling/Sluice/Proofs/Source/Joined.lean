/-
  Sluice.Proofs.Source.Joined

  Parts that are written into one line and taken apart again. Four readers go over the same
  text, each with rules of its own: one looks for comments, one for brackets that do not match,
  one for the separators of a level, one for blanks. A part that each of them passes over on its
  own is passed over in a line too, whatever stands around it.

  What makes this work is that a balanced text leaves a reader as deep in brackets as it was, and
  outside of string literals. Inside a pair of brackets nothing separates, so only the brackets
  count there.
-/

import Sluice.Proofs.Source.Scan
import Sluice.Source.Balanced

namespace Sluice

-- ============================================================================
-- Trimmed text
-- ============================================================================

namespace Text

/-- A blank at the start is trimmed away. -/
theorem trimChars_cons_blank {c : Char} (hc : isBlank c = true) (cs : List Char) :
    trimChars (c :: cs) = trimChars cs := by
  rw [trimChars, trimWhile, List.dropWhile_cons_of_pos hc]
  rfl

/-- Blanks around a text are trimmed away. -/
theorem trimChars_surround {before after : List Char} (hbefore : Blank before)
    (hafter : Blank after) (text : List Char) :
    trimChars (before ++ text ++ after) = trimChars text := by
  have hfront : ∀ cs, trimChars (before ++ cs) = trimChars cs := by
    intro cs
    induction before with
    | nil => rfl
    | cons c before ih =>
      rw [List.cons_append, trimChars_cons_blank (hbefore c List.mem_cons_self),
        ih fun d hd => hbefore d (List.mem_cons_of_mem c hd)]
  rw [List.append_assoc, hfront]
  induction after generalizing text with
  | nil => rw [List.append_nil]
  | cons c after ih =>
    rw [List.append_cons, ih (fun d hd => hafter d (List.mem_cons_of_mem c hd)),
      trimChars_concat_blank text (hafter c List.mem_cons_self)]

/-- A text that trimming leaves alone, and is not empty, has no blank at its ends. -/
theorem solid_of_trimmed {cs : List Char} (htrim : trimChars cs = cs) (hne : cs ≠ []) :
    Solid cs := by
  constructor
  · obtain ⟨c, rest, rfl⟩ := List.exists_cons_of_ne_nil hne
    refine ⟨c, rfl, Bool.eq_false_iff.2 fun hc => ?_⟩
    have hlength := Source.length_trimChars_le rest
    rw [← trimChars_cons_blank hc, htrim, List.length_cons] at hlength
    omega
  · obtain ⟨rest, c, rfl⟩ : ∃ rest c, cs = rest ++ [c] :=
      ⟨_, _, (List.dropLast_concat_getLast hne).symm⟩
    refine ⟨c, List.getLast?_concat, Bool.eq_false_iff.2 fun hc => ?_⟩
    have hlength := Source.length_trimChars_le rest
    rw [← trimChars_concat_blank rest hc, htrim, List.length_append, List.length_singleton]
      at hlength
    omega

/-- A text without blanks has none at its ends. -/
theorem solid_append {front back : List Char} {c d : Char} (hhead : front.head? = some c)
    (hc : isBlank c = false) (hlast : back.getLast? = some d) (hd : isBlank d = false) :
    Solid (front ++ back) :=
  ⟨⟨c, by rw [List.head?_append, hhead]; rfl, hc⟩,
    d, by rw [List.getLast?_append, hlast]; rfl, hd⟩

theorem Solid.ne_nil {text : List Char} (h : Solid text) : text ≠ [] := by
  rintro rfl
  exact h.not_blank (List.forall_mem_nil _)

/-- Joined parts end with the last one. -/
theorem getLast?_joinWith (sep : List Char) {parts : List (List Char)} {part : List Char}
    (hlast : parts.getLast? = some part) {c : Char} (hc : part.getLast? = some c) :
    (joinWith sep parts).getLast? = some c := by
  induction parts with
  | nil => cases hlast
  | cons first parts ih =>
    cases parts with
    | nil =>
      cases hlast
      exact hc
    | cons next parts =>
      rw [List.getLast?_cons_cons] at hlast
      rw [joinWith_cons_cons, List.getLast?_append, ih hlast]
      rfl

theorem solid_joinWith (sep : List Char) {parts : List (List Char)} (hne : parts ≠ [])
    (h : ∀ part ∈ parts, Solid part) : Solid (joinWith sep parts) := by
  obtain ⟨first, others, rfl⟩ := List.exists_cons_of_ne_nil hne
  obtain ⟨tail, htail⟩ := joinWith_cons sep first others
  obtain ⟨⟨c, hhead, hc⟩, -⟩ := h first List.mem_cons_self
  obtain ⟨-, d, hend, hd⟩ := h _ (List.getLast_mem hne)
  refine ⟨⟨c, by rw [htail, List.head?_append, hhead]; rfl, hc⟩, d, ?_, hd⟩
  exact getLast?_joinWith sep (List.getLast?_eq_some_getLast hne) hend

end Text

namespace Source

-- ============================================================================
-- Where a reader stands
-- ============================================================================

/-- Where a reader stands after one more character: relative to string literals, and how deep in
brackets. -/
def stand (place : Quoting × Nat) (c : Char) : Quoting × Nat :=
  (place.1.after c, if place.1 = .outside then depthAfter place.2 c else place.2)

/-- The brackets that open are those that have a partner. -/
theorem isOpening_eq (c : Char) : isOpening c = (closerOf? c).isSome := by
  unfold closerOf?
  split
  · rfl
  · rfl
  · rfl
  · next hbrace hbracket hparenthesis =>
    simp only [isOpening, Option.isSome_none, Bool.or_eq_false_iff, decide_eq_false_iff_not]
    exact ⟨⟨hbrace, hbracket⟩, hparenthesis⟩

theorem exists_closerOf? {c : Char} (hc : isOpening c = true) :
    ∃ closing, closerOf? c = some closing := by
  rwa [← Option.isSome_iff_exists, ← isOpening_eq]

/-- A bracket that closes does not open. -/
theorem closerOf?_of_closing {c : Char} (hc : isClosing c = true) : closerOf? c = none := by
  simp only [isClosing, Bool.or_eq_true, decide_eq_true_eq] at hc
  rcases hc with (rfl | rfl) | rfl <;> rfl

/-- An opening bracket makes its partner the innermost one that is due. -/
theorem balancedFrom_opening {c closing : Char} (hc : closerOf? c = some closing)
    (due rest : List Char) :
    balancedFrom .outside due (c :: rest) = balancedFrom .outside (closing :: due) rest := by
  simp only [balancedFrom, hc]

/-- A closing bracket takes away the innermost one that is due. -/
theorem balancedFrom_closing {c : Char} (hc : isClosing c = true) (due rest : List Char) :
    balancedFrom .outside (c :: due) (c :: rest) = balancedFrom .outside due rest := by
  simp [balancedFrom, closerOf?_of_closing hc, hc]

/-- No other bracket may close. -/
theorem due_of_balancedFrom_closing {c : Char} {due rest : List Char} (hc : isClosing c = true)
    (h : balancedFrom .outside due (c :: rest) = true) : ∃ due', due = c :: due' := by
  cases due with
  | nil => simp [balancedFrom, closerOf?_of_closing hc, hc] at h
  | cons closer due =>
    simp only [balancedFrom, closerOf?_of_closing hc, hc, if_true, Bool.and_eq_true, beq_iff_eq]
      at h
    exact ⟨due, by rw [h.1]⟩

/-- Any other character matters only to string literals. -/
theorem balancedFrom_after {c : Char} (hopening : isOpening c = false)
    (hclosing : isClosing c = false) (due rest : List Char) :
    balancedFrom .outside due (c :: rest) =
      balancedFrom (Quoting.outside.after c) due rest := by
  have hcloser : closerOf? c = none := by
    rw [← Option.not_isSome_iff_eq_none, ← isOpening_eq, hopening]
    simp
  simp [balancedFrom, hcloser, hclosing]

/-- What one character of a balanced text does: the brackets that are still due after it are as
many as the reader is deep. -/
theorem balancedFrom_cons {q : Quoting} {due : List Char} {c : Char} {rest : List Char}
    (h : balancedFrom q due (c :: rest) = true) :
    ∃ due', balancedFrom (q.after c) due' rest = true ∧
      (∀ n, stand (q, due.length + n) c = (q.after c, due'.length + n)) ∧
      ∀ more tail, balancedFrom q (due ++ more) (c :: tail) =
        balancedFrom (q.after c) (due' ++ more) tail := by
  cases q with
  | inside quote => exact ⟨due, h, fun n => rfl, fun more tail => rfl⟩
  | escaped quote => exact ⟨due, h, fun n => rfl, fun more tail => rfl⟩
  | outside =>
    by_cases hopening : isOpening c = true
    · obtain ⟨closer, hcloser⟩ := exists_closerOf? hopening
      rw [balancedFrom_opening hcloser] at h
      rw [Quoting.outside_after (isQuote_of_opening hopening)]
      refine ⟨closer :: due, h, fun n => ?_, fun more tail => balancedFrom_opening hcloser _ _⟩
      rw [stand, if_pos rfl, depthAfter_opening hopening,
        Quoting.outside_after (isQuote_of_opening hopening), List.length_cons]
      congr 1
      omega
    by_cases hclosing : isClosing c = true
    · obtain ⟨due, rfl⟩ := due_of_balancedFrom_closing hclosing h
      rw [balancedFrom_closing hclosing] at h
      rw [Quoting.outside_after (isQuote_of_closing hclosing)]
      refine ⟨due, h, fun n => ?_, fun more tail => balancedFrom_closing hclosing _ _⟩
      rw [stand, if_pos rfl, List.length_cons, Nat.add_right_comm, depthAfter_closing hclosing,
        Quoting.outside_after (isQuote_of_closing hclosing)]
    · rw [Bool.not_eq_true] at hopening hclosing
      rw [balancedFrom_after hopening hclosing] at h
      refine ⟨due, h, fun n => ?_, fun more tail => balancedFrom_after hopening hclosing _ _⟩
      rw [stand, if_pos rfl]
      simp [depthAfter, hopening, hclosing]

/-- Where a beginning of a balanced text leads: the brackets that are due after it are as many as
the reader is deep, and how the text goes on is all that matters from there. -/
theorem balancedFrom_reaches {q : Quoting} {due front tail : List Char}
    (h : balancedFrom q due (front ++ tail) = true) :
    ∃ q' due', balancedFrom q' due' tail = true ∧
      (∀ n, front.foldl stand (q, due.length + n) = (q', due'.length + n)) ∧
      ∀ more tail', balancedFrom q (due ++ more) (front ++ tail') =
        balancedFrom q' (due' ++ more) tail' := by
  induction front generalizing q due with
  | nil => exact ⟨q, due, h, fun n => rfl, fun more tail' => rfl⟩
  | cons c front ih =>
    obtain ⟨due₁, hrest, hstand, hmore⟩ := balancedFrom_cons h
    obtain ⟨q', due', htail, hfold, happend⟩ := ih hrest
    refine ⟨q', due', htail, fun n => ?_, fun more tail' => ?_⟩
    · rw [List.foldl_cons, hstand, hfold]
    · rw [List.cons_append, hmore, happend]

/-- What is balanced from some place on ends outside of strings, with nothing due. -/
theorem balancedFrom_nil {q : Quoting} {due : List Char} :
    balancedFrom q due [] = true ↔ q = .outside ∧ due = [] := by
  rw [balancedFrom, Bool.and_eq_true, List.isEmpty_iff, beq_iff_eq, and_comm]

/-- A balanced text leaves a reader as deep in brackets as it was, and outside of strings. -/
theorem foldl_stand_of_balanced {q : Quoting} {due cs : List Char}
    (h : balancedFrom q due cs = true) (n : Nat) :
    cs.foldl stand (q, due.length + n) = (.outside, n) := by
  rw [← List.append_nil cs] at h
  obtain ⟨q', due', hend, hfold, -⟩ := balancedFrom_reaches h
  obtain ⟨rfl, rfl⟩ := balancedFrom_nil.1 hend
  rw [hfold, List.length_nil, Nat.zero_add]

/-- So whether what follows is balanced does not depend on it. -/
theorem balancedFrom_append {q : Quoting} {due cs : List Char} (h : balancedFrom q due cs = true)
    (more tail : List Char) :
    balancedFrom q (due ++ more) (cs ++ tail) = balancedFrom .outside more tail := by
  rw [← List.append_nil cs] at h
  obtain ⟨q', due', hend, -, happend⟩ := balancedFrom_reaches h
  obtain ⟨rfl, rfl⟩ := balancedFrom_nil.1 hend
  exact happend more tail

/-- A beginning of a balanced text is balanced if the reader stands after it as before, and so is
what follows on it. -/
theorem balancedFrom_beginning {q : Quoting} {due front tail : List Char}
    (h : balancedFrom q due (front ++ tail) = true)
    (hfront : front.foldl stand (q, due.length) = (.outside, 0)) :
    balancedFrom q due front = true ∧ isBalanced tail = true := by
  obtain ⟨q', due', htail, hfold, happend⟩ := balancedFrom_reaches h
  have hplace := (hfold 0).symm.trans hfront
  rw [Nat.add_zero, Prod.mk.injEq, List.length_eq_zero_iff] at hplace
  obtain ⟨rfl, rfl⟩ := hplace
  have halone := happend [] []
  rw [List.append_nil, List.append_nil] at halone
  exact ⟨halone, htail⟩

theorem isBalanced_append {cs tail : List Char} (h : isBalanced cs = true)
    (htail : isBalanced tail = true) : isBalanced (cs ++ tail) = true :=
  (balancedFrom_append h [] tail).trans htail

-- ============================================================================
-- Text in one piece
-- ============================================================================

/-- Whether a character separates, at a place and between its neighbours. -/
def separates (delimiter : Char) (place : Quoting × Nat) (before : Option Char) (c : Char)
    (rest : List Char) : Bool :=
  place.1 == .outside && c == delimiter && (stand place c).2 == 0 && !isMarker before c rest

theorem pieces_cons (delimiter : Char) (q : Quoting) (depth : Nat) (before : Option Char)
    (c : Char) (rest : List Char) :
    pieces delimiter q depth before (c :: rest) =
      if separates delimiter (q, depth) before c rest then
        [] :: pieces delimiter (stand (q, depth) c).1 (stand (q, depth) c).2 (some c) rest
      else Text.consHead c
        (pieces delimiter (stand (q, depth) c).1 (stand (q, depth) c).2 (some c) rest) := by
  cases q with
  | outside => simp [pieces, separates, stand]
  | inside quote => simp [pieces, separates, stand]
  | escaped quote => simp [pieces, separates, stand]

theorem pieces_ne_nil (delimiter : Char) (q : Quoting) (depth : Nat) (before : Option Char)
    (cs : List Char) : pieces delimiter q depth before cs ≠ [] := by
  cases cs with
  | nil => simp [pieces]
  | cons c cs =>
    rw [pieces_cons]
    split
    · simp
    · cases pieces delimiter (stand (q, depth) c).1 (stand (q, depth) c).2 (some c) cs <;>
        simp [Text.consHead]

/-- A text is one piece if its first character does not separate, and the rest is one piece. -/
theorem pieces_cons_eq_singleton {delimiter : Char} {q : Quoting} {depth : Nat}
    {before : Option Char} {c : Char} {cs : List Char} :
    pieces delimiter q depth before (c :: cs) = [c :: cs] ↔
      separates delimiter (q, depth) before c cs = false ∧
        pieces delimiter (stand (q, depth) c).1 (stand (q, depth) c).2 (some c) cs = [cs] := by
  rw [pieces_cons]
  split
  · next h => simp [h]
  · next h =>
    have hne := pieces_ne_nil delimiter (stand (q, depth) c).1 (stand (q, depth) c).2 (some c) cs
    cases hrest : pieces delimiter (stand (q, depth) c).1 (stand (q, depth) c).2 (some c) cs with
    | nil => exact absurd hrest hne
    | cons piece more => simp [h, Text.consHead]

/-- What does not separate at the end of a text does not separate where more text follows. -/
theorem separates_mono {delimiter : Char} {place : Quoting × Nat} {c : Char}
    {before : Option Char} {rest : List Char}
    (h : separates delimiter place before c rest = false) (tail : List Char) :
    separates delimiter place before c (rest ++ tail) = false := by
  cases rest with
  | cons d rest => exact h
  | nil =>
    have hmarker : isMarker before c [] = false := by simp [isMarker]
    rw [separates, hmarker, Bool.not_false, Bool.and_true] at h
    rw [separates, h, Bool.false_and]

theorem separates_before {delimiter : Char} {place : Quoting × Nat} {c : Char} {rest : List Char}
    (h : separates delimiter place none c rest = false) (before : Option Char) :
    separates delimiter place before c rest = false := by
  have hmarker : isMarker none c rest = false := by simp [isMarker]
  rw [separates, hmarker, Bool.not_false, Bool.and_true] at h
  rw [separates, h, Bool.false_and]

/-- A text that is one piece is one piece behind any other character. -/
theorem pieces_before {delimiter : Char} {q : Quoting} {depth : Nat} {cs : List Char}
    (h : pieces delimiter q depth none cs = [cs]) (before : Option Char) :
    pieces delimiter q depth before cs = [cs] := by
  cases cs with
  | nil => rfl
  | cons c cs =>
    rw [pieces_cons_eq_singleton] at h ⊢
    exact ⟨separates_before h.1 before, h.2⟩

theorem getLast?_cons_or (c : Char) (cs : List Char) (before : Option Char) :
    (c :: cs).getLast?.or before = cs.getLast?.or (some c) := by
  rw [List.getLast?_cons]
  cases cs.getLast? <;> rfl

/-- A reader passes over a text that is one piece. -/
theorem pieces_append {delimiter : Char} {q : Quoting} {depth : Nat} {before : Option Char}
    {cs : List Char} (h : pieces delimiter q depth before cs = [cs]) (tail : List Char) :
    pieces delimiter q depth before (cs ++ tail) =
      cs.foldr Text.consHead (pieces delimiter (cs.foldl stand (q, depth)).1
        (cs.foldl stand (q, depth)).2 (cs.getLast?.or before) tail) := by
  induction cs generalizing q depth before with
  | nil => rfl
  | cons c cs ih =>
    obtain ⟨hfirst, hrest⟩ := pieces_cons_eq_singleton.1 h
    rw [List.cons_append, pieces_cons, if_neg (by simp [separates_mono hfirst tail]), ih hrest,
      getLast?_cons_or]
    rfl

/-- Inside of brackets a balanced text is one piece. -/
theorem pieces_of_balanced (delimiter : Char) {q : Quoting} {due cs : List Char}
    (h : balancedFrom q due cs = true) {depth : Nat} (hdepth : depth ≠ 0)
    (before : Option Char) : pieces delimiter q (due.length + depth) before cs = [cs] := by
  induction cs generalizing q due before with
  | nil => rfl
  | cons c cs ih =>
    obtain ⟨due', hrest, hstand, -⟩ := balancedFrom_cons h
    have hdeep : (due'.length + depth == 0) = false := by
      rw [beq_eq_false_iff_ne]
      omega
    rw [pieces_cons_eq_singleton, hstand]
    refine ⟨?_, ih hrest (some c)⟩
    rw [separates, hstand, hdeep, Bool.and_false, Bool.false_and]

/-- What splitting at a delimiter takes as one part: balanced text in which the delimiter stands
only inside of brackets and strings. -/
structure Whole (delimiter : Char) (cs : List Char) : Prop where
  balanced : isBalanced cs = true
  single : pieces delimiter .outside 0 none cs = [cs]

theorem Whole.append {delimiter : Char} {cs tail : List Char} (h : Whole delimiter cs)
    (htail : Whole delimiter tail) : Whole delimiter (cs ++ tail) where
  balanced := isBalanced_append h.balanced htail.balanced
  single := by
    have hstand := foldl_stand_of_balanced h.balanced 0
    rw [List.length_nil, Nat.add_zero] at hstand
    rw [pieces_append h.single, hstand, pieces_before htail.single, Text.consHead_foldr]

-- ============================================================================
-- Text within a line
-- ============================================================================

/-- Whether a text starts with a comment. -/
def startsComment : List Char → Bool
  | '#' :: _ => true
  | '/' :: '/' :: _ => true
  | '/' :: '*' :: _ => true
  | _ => false

/-- Whether neither a newline nor a comment starts in a text outside of string literals. -/
def unbroken (q : Quoting) : List Char → Bool
  | [] => true
  | c :: rest =>
    !(q == .outside && (c == '\n' || startsComment (c :: rest))) && unbroken (q.after c) rest

/-- What can be written into a line: balanced text that is one piece for each of the delimiters,
and in which neither a newline nor a comment starts. -/
structure Inline (delimiters cs : List Char) : Prop where
  balanced : isBalanced cs = true
  whole : ∀ d ∈ delimiters, pieces d .outside 0 none cs = [cs]
  unbroken : unbroken .outside cs = true

instance (delimiters cs : List Char) : Decidable (Inline delimiters cs) :=
  decidable_of_iff (isBalanced cs = true ∧
      (delimiters.all fun d => decide (pieces d .outside 0 none cs = [cs])) = true ∧
      unbroken .outside cs = true)
    ⟨fun h => ⟨h.1, by simpa using h.2.1, h.2.2⟩,
      fun h => ⟨h.balanced, by simpa using h.whole, h.unbroken⟩⟩

/-- The characters that one of the readers looks at, the delimiters apart. -/
def marks : List Char :=
  ['"', '\'', '\x7b', '[', '(', '\x7d', ']', ')', '#', '/', '\n']

/-- Whether a text has none of the marks and of the delimiters. -/
def isPlain (delimiters cs : List Char) : Bool :=
  cs.all fun c => !(marks ++ delimiters).contains c

theorem isPlain_iff {delimiters cs : List Char} :
    isPlain delimiters cs = true ↔ ∀ c ∈ cs, c ∉ marks ∧ c ∉ delimiters := by
  simp [isPlain]

theorem isPlain_mono {delimiters fewer cs : List Char} (h : isPlain delimiters cs = true)
    (hsub : fewer ⊆ delimiters) : isPlain fewer cs = true := by
  rw [isPlain_iff] at h ⊢
  exact fun c hc => ⟨(h c hc).1, fun hmem => (h c hc).2 (hsub hmem)⟩

theorem not_mark {c : Char} (h : c ∉ marks) :
    isQuote c = false ∧ isOpening c = false ∧ isClosing c = false := by
  simp only [marks, List.mem_cons, List.not_mem_nil, not_or] at h
  simp [isQuote, isOpening, isClosing, h]

/-- A character that is neither a quote nor a bracket leaves a reader where it was. -/
theorem stand_silent {c : Char}
    (h : isQuote c = false ∧ isOpening c = false ∧ isClosing c = false) (depth : Nat) :
    stand (.outside, depth) c = (.outside, depth) := by
  obtain ⟨hquote, hopening, hclosing⟩ := h
  rw [stand, if_pos rfl, Quoting.outside_after hquote]
  simp [depthAfter, hopening, hclosing]

/-- Whether what follows is balanced does not depend on it. -/
theorem balancedFrom_silent {c : Char}
    (h : isQuote c = false ∧ isOpening c = false ∧ isClosing c = false) (due rest : List Char) :
    balancedFrom .outside due (c :: rest) = balancedFrom .outside due rest := by
  rw [balancedFrom_after h.2.1 h.2.2, Quoting.outside_after h.1]

/-- A plain character leaves a reader where it was. -/
theorem stand_plain {c : Char} (h : c ∉ marks) (depth : Nat) :
    stand (.outside, depth) c = (.outside, depth) :=
  stand_silent (not_mark h) depth

/-- A comment starts with its mark. -/
theorem startsComment_of_not_mark {c : Char} (h : c ∉ marks) (rest : List Char) :
    startsComment (c :: rest) = false := by
  unfold startsComment
  split
  · next heq => cases heq; exact absurd (by decide) h
  · next heq => cases heq; exact absurd (by decide) h
  · next heq => cases heq; exact absurd (by decide) h
  · rfl

/-- No comment starts at the end of a text and goes on in the next. -/
theorem startsComment_append {c : Char} {rest tail : List Char}
    (h : startsComment (c :: rest) = false) (hslash : tail.head? ≠ some '/')
    (hstar : tail.head? ≠ some '*') : startsComment (c :: (rest ++ tail)) = false := by
  unfold startsComment
  split
  · next heq => cases heq; exact absurd h (by simp [startsComment])
  · next heq =>
    cases rest with
    | nil => cases heq; exact absurd rfl hslash
    | cons d rest => cases heq; exact absurd h (by simp [startsComment])
  · next heq =>
    cases rest with
    | nil => cases heq; exact absurd rfl hstar
    | cons d rest => cases heq; exact absurd h (by simp [startsComment])
  · rfl

theorem unbroken_append {q : Quoting} {cs tail : List Char} (h : unbroken q cs = true)
    (hout : cs.foldl Quoting.after q = .outside) (htail : unbroken .outside tail = true)
    (hslash : tail.head? ≠ some '/') (hstar : tail.head? ≠ some '*') :
    unbroken q (cs ++ tail) = true := by
  induction cs generalizing q with
  | nil =>
    cases hout
    exact htail
  | cons c cs ih =>
    rw [unbroken, Bool.and_eq_true] at h
    rw [List.cons_append, unbroken, ih h.2 hout, Bool.and_true]
    cases q with
    | outside =>
      have hfirst := h.1
      simp only [beq_self_eq_true, Bool.true_and, Bool.not_eq_true', Bool.or_eq_false_iff]
        at hfirst ⊢
      exact ⟨hfirst.1, startsComment_append hfirst.2 hslash hstar⟩
    | inside quote => rfl
    | escaped quote => rfl

theorem foldl_after_of_balanced {cs : List Char} (h : isBalanced cs = true) :
    cs.foldl Quoting.after .outside = .outside := by
  have hfst : ∀ (cs : List Char) (place : Quoting × Nat),
      (cs.foldl stand place).1 = cs.foldl Quoting.after place.1 := by
    intro cs
    induction cs with
    | nil => exact fun place => rfl
    | cons c cs ih => exact fun place => ih (stand place c)
  exact (hfst cs (.outside, 0)).symm.trans (congrArg Prod.fst (foldl_stand_of_balanced h 0))

/-- What the readers make of a pair of brackets. -/
theorem bracket_pair {opening closing : Char} (h : closerOf? opening = some closing) :
    (∀ depth, stand (.outside, depth) opening = (.outside, depth + 1)) ∧
      balancedFrom .outside [closing] [closing] = true ∧
      (∀ rest, unbroken .outside (opening :: rest) = unbroken .outside rest) ∧
      unbroken .outside [closing] = true ∧ closing ≠ '/' ∧ closing ≠ '*' := by
  unfold closerOf? at h
  split at h
  · cases h
    exact ⟨fun _ => rfl, rfl, fun _ => rfl, rfl, by decide, by decide⟩
  · cases h
    exact ⟨fun _ => rfl, rfl, fun _ => rfl, rfl, by decide, by decide⟩
  · cases h
    exact ⟨fun _ => rfl, rfl, fun _ => rfl, rfl, by decide, by decide⟩
  · cases h

namespace Inline

variable {delimiters cs tail : List Char}

theorem nil : Inline delimiters [] :=
  ⟨rfl, fun _ _ => rfl, rfl⟩

theorem part {d : Char} (h : Inline delimiters cs) (hd : d ∈ delimiters) : Whole d cs :=
  ⟨h.balanced, h.whole d hd⟩

theorem mono {fewer : List Char} (h : Inline delimiters cs) (hsub : fewer ⊆ delimiters) :
    Inline fewer cs :=
  ⟨h.balanced, fun d hd => h.whole d (hsub hd), h.unbroken⟩

/-- What follows must not make a comment of a slash at the end. -/
theorem append (h : Inline delimiters cs) (htail : Inline delimiters tail)
    (hslash : tail.head? ≠ some '/') (hstar : tail.head? ≠ some '*') :
    Inline delimiters (cs ++ tail) where
  balanced := isBalanced_append h.balanced htail.balanced
  whole _ hd := ((h.part hd).append (htail.part hd)).single
  unbroken := unbroken_append h.unbroken (foldl_after_of_balanced h.balanced) htail.unbroken
    hslash hstar

/-- Plain text can stand in front of anything. -/
theorem plain_append {front : List Char} (hfront : isPlain delimiters front = true)
    (h : Inline delimiters cs) : Inline delimiters (front ++ cs) := by
  rw [isPlain_iff] at hfront
  induction front with
  | nil => exact h
  | cons c front ih =>
    obtain ⟨hmark, hdelimiter⟩ := hfront c List.mem_cons_self
    have hrest := ih fun d hd => hfront d (List.mem_cons_of_mem c hd)
    obtain ⟨hquote, hopening, hclosing⟩ := not_mark hmark
    constructor
    case balanced => exact (balancedFrom_silent (not_mark hmark) [] _).trans hrest.balanced
    case whole =>
      intro d hd
      have hne : (c == d) = false := beq_eq_false_iff_ne.2 fun heq => hdelimiter (heq ▸ hd)
      rw [List.cons_append, pieces_cons_eq_singleton, stand_plain hmark]
      refine ⟨?_, pieces_before (hrest.whole d hd) (some c)⟩
      rw [separates, hne, Bool.and_false, Bool.false_and, Bool.false_and]
    case unbroken =>
      have hnewline : (c == '\n') = false :=
        beq_eq_false_iff_ne.2 fun heq => hmark (heq ▸ by decide)
      rw [List.cons_append, Source.unbroken, startsComment_of_not_mark hmark, hnewline,
        Quoting.outside_after hquote]
      exact hrest.unbroken

theorem of_plain (h : isPlain delimiters cs = true) : Inline delimiters cs := by
  have hcs := plain_append h nil
  rwa [List.append_nil] at hcs

/-- Text between brackets can be written anywhere, whatever separates in it. -/
theorem wrap {others : List Char} (h : Inline others cs) {opening closing : Char}
    (hcloser : closerOf? opening = some closing) (hdelimiter : closing ∉ delimiters) :
    Inline delimiters (opening :: (cs ++ [closing])) := by
  obtain ⟨hopens, hcloses, hopening, hclosing, hslash, hstar⟩ := bracket_pair hcloser
  constructor
  case balanced =>
    have hinner := balancedFrom_append h.balanced [closing] [closing]
    exact (balancedFrom_opening hcloser [] _).trans (hinner.trans hcloses)
  case whole =>
    intro d hd
    have hinner : pieces d .outside 1 (some opening) cs = [cs] :=
      pieces_of_balanced d h.balanced Nat.one_ne_zero (some opening)
    have hstand := foldl_stand_of_balanced h.balanced 1
    have hne : (closing == d) = false := beq_eq_false_iff_ne.2 fun heq => hdelimiter (heq ▸ hd)
    have hlast : pieces d .outside 1 (cs.getLast?.or (some opening)) [closing] = [[closing]] := by
      rw [pieces_cons_eq_singleton, separates, hne, Bool.and_false, Bool.false_and]
      exact ⟨rfl, rfl⟩
    rw [List.length_nil, Nat.zero_add] at hstand
    rw [pieces_cons_eq_singleton, hopens]
    refine ⟨by simp [separates, hopens], ?_⟩
    rw [pieces_append hinner, hstand, hlast, Text.consHead_foldr]
  case unbroken =>
    rw [hopening]
    exact unbroken_append h.unbroken (foldl_after_of_balanced h.balanced) hclosing
      (by simpa using hslash) (by simpa using hstar)

/-- Parts joined with a plain text that starts with no second half of a comment mark. -/
theorem joinWith {c : Char} {sep : List Char} (hsep : isPlain delimiters (c :: sep) = true)
    (hstar : c ≠ '*') {parts : List (List Char)} (hparts : ∀ p ∈ parts, Inline delimiters p) :
    Inline delimiters (Text.joinWith (c :: sep) parts) := by
  have hslash : c ≠ '/' :=
    fun heq => (isPlain_iff.1 hsep c List.mem_cons_self).1 (heq ▸ by decide)
  induction parts with
  | nil => exact nil
  | cons part parts ih =>
    cases parts with
    | nil => exact hparts part List.mem_cons_self
    | cons next parts =>
      have htail := plain_append hsep (ih fun p hp => hparts p (List.mem_cons_of_mem part hp))
      rw [Text.joinWith_cons_cons, List.append_assoc]
      exact (hparts part List.mem_cons_self).append htail (by simpa using hslash)
        (by simpa using hstar)

end Inline

-- ============================================================================
-- Splitting joined parts
-- ============================================================================

/-- Parts that are joined with a delimiter, and blanks around it, are found again without the
blanks at their ends. -/
theorem splitTopLevel_joined {d : Char} (hd : d ∉ ' ' :: marks) (lead : List Char)
    (hlead : ∀ c ∈ lead, c = ' ') {part : List Char} {parts : List (List Char)}
    (hparts : ∀ p ∈ part :: parts, Whole d p) {front : List Char} (hfront : ∀ c ∈ front, c = ' ') :
    splitTopLevel d (front ++ Text.joinWith (lead ++ [d, ' ']) (part :: parts)) =
      (part :: parts).map Text.trimChars := by
  rw [List.mem_cons, not_or] at hd
  have hblank : ∀ {cs : List Char}, (∀ c ∈ cs, c = ' ') → Text.Blank cs :=
    fun hcs c hc => hcs c hc ▸ rfl
  have hwhole : ∀ {cs : List Char}, (∀ c ∈ cs, c = ' ') → Whole d cs := by
    intro cs hcs
    have hplain : isPlain [d] cs = true := by
      rw [isPlain_iff]
      intro c hc
      rw [hcs c hc, List.mem_singleton]
      exact ⟨by decide, Ne.symm hd.1⟩
    exact (Inline.of_plain hplain).part (List.mem_singleton_self d)
  suffices h : ∀ before, (pieces d .outside 0 before
      (front ++ Text.joinWith (lead ++ [d, ' ']) (part :: parts))).map Text.trimChars =
      (part :: parts).map Text.trimChars from h none
  intro before
  induction parts generalizing part front before with
  | nil =>
    have hfirst := (hwhole hfront).append (hparts part List.mem_cons_self)
    have htrim := Text.trimChars_surround (hblank hfront) (List.forall_mem_nil _) part
    rw [List.append_nil] at htrim
    rw [Text.joinWith, pieces_before hfirst.single, List.map_singleton, List.map_singleton, htrim]
  | cons next parts ih =>
    have hfirst := ((hwhole hfront).append (hparts part List.mem_cons_self)).append (hwhole hlead)
    have hstand := foldl_stand_of_balanced hfirst.balanced 0
    rw [List.length_nil, Nat.add_zero] at hstand
    have htext : front ++ Text.joinWith (lead ++ [d, ' ']) (part :: next :: parts) =
        front ++ part ++ lead ++
          d :: ([' '] ++ Text.joinWith (lead ++ [d, ' ']) (next :: parts)) := by
      rw [Text.joinWith_cons_cons]
      simp
    have hseparates : ∀ b, separates d (.outside, 0) b d
        ([' '] ++ Text.joinWith (lead ++ [d, ' ']) (next :: parts)) = true := by
      intro b
      rw [separates, stand_plain hd.2]
      simp [isMarker]
    rw [htext, pieces_append (pieces_before hfirst.single before), hstand, pieces_cons,
      if_pos (hseparates _), stand_plain hd.2, Text.consHead_foldr, List.append_nil, List.map_cons,
      Text.trimChars_surround (hblank hfront) (hblank hlead),
      ih (fun p hp => hparts p (List.mem_cons_of_mem part hp)) (by simp)]
    rfl

/-- Trimmed parts are found again as they were. -/
theorem splitTopLevel_joinWith {d : Char} (hd : d ∉ ' ' :: marks) (lead : List Char)
    (hlead : ∀ c ∈ lead, c = ' ') {part : List Char} {parts : List (List Char)}
    (hparts : ∀ p ∈ part :: parts, Text.trimChars p = p ∧ Inline [d] p) {front : List Char}
    (hfront : ∀ c ∈ front, c = ' ') :
    splitTopLevel d (front ++ Text.joinWith (lead ++ [d, ' ']) (part :: parts)) =
      part :: parts := by
  rw [splitTopLevel_joined hd lead hlead
    (fun p hp => (hparts p hp).2.part (List.mem_singleton_self d)) hfront]
  exact (List.map_congr_left fun p hp => (hparts p hp).1).trans (List.map_id _)

/-- Arguments are found again. -/
theorem splitArgs_joinWith {parts : List (List Char)}
    (hparts : ∀ p ∈ parts, Text.Solid p ∧ Inline [','] p) :
    splitArgs (Text.joinWith [',', ' '] parts) = parts := by
  cases parts with
  | nil => rfl
  | cons part parts =>
    have hsolid := (hparts part List.mem_cons_self).1
    have hne : (Text.trimChars (Text.joinWith [',', ' '] (part :: parts))).isEmpty = false := by
      rw [List.isEmpty_eq_false_iff, ne_eq, Text.trimChars_eq_nil_iff]
      intro hblank
      obtain ⟨tail, htail⟩ := Text.joinWith_cons [',', ' '] part parts
      rw [htail] at hblank
      exact hsolid.not_blank fun c hc => hblank c (List.mem_append_left tail hc)
    rw [splitArgs, if_neg (by simp [hne])]
    exact splitTopLevel_joinWith (by decide) [] (List.forall_mem_nil _) (fun p hp =>
      ⟨Text.trimChars_of_solid (hparts p hp).1, (hparts p hp).2⟩) (List.forall_mem_nil _)

/-- No comment is found in text without one. -/
theorem stripLine_of_unbroken (number : Nat) {q : Quoting} {cs : List Char}
    (h : unbroken q cs = true) : stripLine number none q cs = (cs, none) := by
  induction cs generalizing q with
  | nil => rfl
  | cons c cs ih =>
    rw [unbroken, Bool.and_eq_true, Bool.not_eq_true', Bool.and_eq_false_imp, beq_iff_eq] at h
    obtain ⟨hfirst, hrest⟩ := h
    have hcomment : q = .outside → startsComment (c :: cs) = false :=
      fun hq => (Bool.or_eq_false_iff.1 (hfirst hq)).2
    have hhash : ¬ (q = .outside ∧ c = '#') := by
      rintro ⟨hq, rfl⟩
      cases hcomment hq
    cases cs with
    | nil =>
      rw [stripLine, if_neg (by simp), if_neg hhash]
    | cons d cs =>
      have hline : ¬ (q = .outside ∧ (c = '#' ∨ c = '/' ∧ d = '/')) := by
        rintro ⟨hq, hc | ⟨rfl, rfl⟩⟩
        · exact hhash ⟨hq, hc⟩
        · cases hcomment hq
      have hblock : ¬ (q = .outside ∧ c = '/' ∧ d = '*') := by
        rintro ⟨hq, rfl, rfl⟩
        cases hcomment hq
      rw [stripLine, if_neg (by simp), if_neg hline, if_neg hblock, ih hrest]
      rfl

/-- The only line of a text without newlines and comments. -/
theorem scan_line {cs : List Char} (hline : '\n' ∉ cs) (h : unbroken .outside cs = true)
    (hne : Text.trimChars cs ≠ []) :
    scan (String.ofList cs) = ⟨[⟨1, String.ofList (Text.trimChars cs)⟩], none⟩ := by
  have hlines : Text.lines cs = [cs] := by
    rw [Text.lines, Text.splitAtChar_of_not_mem hline, Text.lines.closeLines, if_neg]
    rintro hempty
    rw [List.isEmpty_iff.1 hempty] at hne
    exact hne rfl
  rw [scan, String.toList_ofList, hlines, scanLines, stripLine_of_unbroken 1 h]
  simp only [scanLines, List.isEmpty_iff, hne, if_false]

end Source

end Sluice
