/-
  Sluice.Proofs.Source.Balanced

  What the check for balance accepts, as a grammar. A balanced text is empty, or it is a balanced
  text behind a character that is neither a quote nor a bracket, behind a string literal, or behind
  a balanced text between two brackets of a pair.

  The check goes over a text once, with a stack of the closing brackets that are due. A stack
  stands for what it wants to be followed by: balanced text as far as the innermost bracket, and
  from there on what the rest of the stack wants (`Closes`). Every kind of character is a step of
  the check in one direction and a rule of the grammar in the other.

  Main statement: the check accepts the texts of the grammar and no others
  (`isBalanced_iff_balanced`).
-/

import Mathlib.Tactic.Tauto
import Sluice.Proofs.Source.Joined

namespace Sluice.Source

-- ============================================================================
-- The grammar
-- ============================================================================

/-- The characters that open and close string literals. -/
def quotes : List Char :=
  ['"', '\'']

/-- The pairs of brackets. -/
def brackets : List (Char × Char) :=
  [('(', ')'), ('[', ']'), ('\x7b', '\x7d')]

/-- What may stand between the quotes of a string literal. A backslash takes the next character
along, whatever that is; apart from that the quote does not occur. -/
inductive Quoted (quote : Char) : List Char → Prop where
  | nil : Quoted quote []
  | cons {c : Char} {cs : List Char} (hslash : c ≠ '\\') (hquote : c ≠ quote)
      (hcs : Quoted quote cs) : Quoted quote (c :: cs)
  | escape (c : Char) {cs : List Char} (hcs : Quoted quote cs) : Quoted quote ('\\' :: c :: cs)

/-- Balanced text. -/
inductive Balanced : List Char → Prop where
  | nil : Balanced []
  | cons {c : Char} {rest : List Char} (hquote : c ∉ quotes)
      (hbracket : ∀ pair ∈ brackets, c ≠ pair.1 ∧ c ≠ pair.2) (hrest : Balanced rest) :
      Balanced (c :: rest)
  | literal {quote : Char} {body rest : List Char} (hquote : quote ∈ quotes)
      (hbody : Quoted quote body) (hrest : Balanced rest) :
      Balanced (quote :: body ++ quote :: rest)
  | enclosed {opening closing : Char} {inner rest : List Char}
      (hpair : (opening, closing) ∈ brackets) (hinner : Balanced inner) (hrest : Balanced rest) :
      Balanced (opening :: inner ++ closing :: rest)

theorem Balanced.append {cs tail : List Char} (h : Balanced cs) (htail : Balanced tail) :
    Balanced (cs ++ tail) := by
  induction h with
  | nil => exact htail
  | cons hquote hbracket _ ih => exact .cons hquote hbracket ih
  | literal hquote hbody _ ih =>
    rw [List.append_assoc]
    exact .literal hquote hbody ih
  | enclosed hpair hinner _ _ ih =>
    rw [List.append_assoc]
    exact .enclosed hpair hinner ih

-- ============================================================================
-- Kinds of characters
-- ============================================================================

variable {c closing quote : Char} {q : Quoting} {due cs rest : List Char}

theorem mem_quotes_iff : c ∈ quotes ↔ isQuote c = true := by
  simp [quotes, isQuote]

theorem mem_brackets_iff : (c, closing) ∈ brackets ↔ closerOf? c = some closing := by
  simp only [brackets, List.mem_cons, Prod.mk.injEq, List.not_mem_nil, or_false]
  unfold closerOf?
  split
  · simp [eq_comm]
  · simp [eq_comm]
  · simp [eq_comm]
  · next hbrace hbracket hparenthesis =>
    constructor
    · rintro (⟨heq, -⟩ | ⟨heq, -⟩ | ⟨heq, -⟩)
      · exact (hparenthesis heq).elim
      · exact (hbracket heq).elim
      · exact (hbrace heq).elim
    · rintro ⟨⟩

theorem isClosing_of_mem_brackets (h : (c, closing) ∈ brackets) : isClosing closing = true := by
  simp only [brackets, List.mem_cons, Prod.mk.injEq, List.not_mem_nil, or_false] at h
  rcases h with ⟨-, rfl⟩ | ⟨-, rfl⟩ | ⟨-, rfl⟩ <;> rfl

theorem plain_iff : (c ∉ quotes ∧ ∀ pair ∈ brackets, c ≠ pair.1 ∧ c ≠ pair.2) ↔
    isQuote c = false ∧ isOpening c = false ∧ isClosing c = false := by
  simp only [quotes, brackets, isQuote, isOpening, isClosing, List.mem_cons, List.not_mem_nil,
    or_false, forall_eq_or_imp, forall_eq, not_or, Bool.or_eq_false_iff, decide_eq_false_iff_not]
  tauto

theorem quote_or_bracket_or_plain (c : Char) :
    isQuote c = true ∨ isClosing c = true ∨ (∃ closing, closerOf? c = some closing) ∨
      isQuote c = false ∧ isOpening c = false ∧ isClosing c = false := by
  rw [← Option.isSome_iff_exists, ← isOpening_eq]
  cases isQuote c <;> cases isClosing c <;> cases isOpening c <;> simp

-- ============================================================================
-- Accepting the grammar
-- ============================================================================

theorem balancedFrom_quote (hc : isQuote c = true) (due rest : List Char) :
    balancedFrom .outside due (c :: rest) = balancedFrom (.inside c) due rest := by
  rcases eq_of_isQuote hc with rfl | rfl <;> rfl

/-- The check passes over the rest of a string literal. -/
theorem balancedFrom_quoted (hquote : isQuote quote = true) {body : List Char}
    (h : Quoted quote body) (due rest : List Char) :
    balancedFrom (.inside quote) due (body ++ quote :: rest) =
      balancedFrom .outside due rest := by
  induction h with
  | nil =>
    show balancedFrom ((Quoting.inside quote).after quote) due rest = _
    rw [Quoting.after_quote hquote]
  | @cons c _ hslash hne _ ih =>
    show balancedFrom ((Quoting.inside quote).after c) due _ = _
    rw [Quoting.after_char hslash hne]
    exact ih
  | escape c _ ih => exact ih

theorem isBalanced_of_balanced (h : Balanced cs) : isBalanced cs = true := by
  induction h with
  | nil => rfl
  | cons hquote hbracket _ ih =>
    exact (balancedFrom_silent (plain_iff.1 ⟨hquote, hbracket⟩) [] _).trans ih
  | literal hquote hbody _ ih =>
    have hquote := mem_quotes_iff.1 hquote
    rw [isBalanced, List.cons_append, balancedFrom_quote hquote, balancedFrom_quoted hquote hbody]
    exact ih
  | @enclosed opening closing inner rest hpair _ _ hinner hrest =>
    -- The partner is due below all that the inner text opens, and is met right behind it.
    have hopens := balancedFrom_opening (mem_brackets_iff.1 hpair) [] (inner ++ closing :: rest)
    have hpassed := balancedFrom_append hinner [closing] (closing :: rest)
    have hcloses := balancedFrom_closing (isClosing_of_mem_brackets hpair) [] rest
    exact hopens.trans (hpassed.trans (hcloses.trans hrest))

-- ============================================================================
-- Accepting nothing else
-- ============================================================================

/-- What a stack of closing brackets wants to be followed by. -/
inductive Closes : List Char → List Char → Prop where
  | nil {cs : List Char} (h : Balanced cs) : Closes [] cs
  | cons {closing : Char} {due inner rest : List Char} (hinner : Balanced inner)
      (hrest : Closes due rest) : Closes (closing :: due) (inner ++ closing :: rest)

theorem Closes.behind {front : List Char} (hfront : Balanced front) (h : Closes due rest) :
    Closes due (front ++ rest) := by
  cases h with
  | nil h => exact .nil (hfront.append h)
  | cons hinner hrest =>
    rw [← List.append_assoc]
    exact .cons (hfront.append hinner) hrest

/-- The same within a string literal, whose rest comes first. -/
def ClosesLiteral (quote : Char) (due cs : List Char) : Prop :=
  ∃ body rest, cs = body ++ quote :: rest ∧ Quoted quote body ∧ Closes due rest

theorem ClosesLiteral.opened (hc : isQuote c = true) (h : ClosesLiteral c due rest) :
    Closes due (c :: rest) := by
  obtain ⟨body, rest, rfl, hbody, hrest⟩ := h
  have hliteral := hrest.behind (.literal (mem_quotes_iff.2 hc) hbody .nil)
  rwa [List.append_assoc] at hliteral

theorem Closes.opened (hc : closerOf? c = some closing) (h : Closes (closing :: due) rest) :
    Closes due (c :: rest) := by
  cases h with
  | cons hinner hrest =>
    have hpair := hrest.behind (.enclosed (mem_brackets_iff.2 hc) hinner .nil)
    rwa [List.append_assoc] at hpair

/-- What is to follow where the check stands; a backslash still takes a character along. -/
def ClosesFrom : Quoting → List Char → List Char → Prop
  | .outside, due, cs => Closes due cs
  | .inside quote, due, cs => ClosesLiteral quote due cs
  | .escaped quote, due, cs => ∃ c rest, cs = c :: rest ∧ ClosesLiteral quote due rest

theorem ClosesFrom.inside_cons (h : ClosesFrom ((Quoting.inside quote).after c) due rest) :
    ClosesFrom (.inside quote) due (c :: rest) := by
  by_cases hslash : c = '\\'
  · subst hslash
    obtain ⟨d, -, rfl, body, rest, rfl, hbody, hrest⟩ := h
    exact ⟨'\\' :: d :: body, rest, rfl, .escape d hbody, hrest⟩
  by_cases hquote : c = quote
  · subst hquote
    rw [Quoting.after, if_neg hslash, if_pos rfl] at h
    exact ⟨[], rest, rfl, .nil, h⟩
  · rw [Quoting.after_char hslash hquote] at h
    obtain ⟨body, rest, rfl, hbody, hrest⟩ := h
    exact ⟨c :: body, rest, rfl, .cons hslash hquote hbody, hrest⟩

/-- Where the check goes on to the end of a text, the text is as the stack wants it. -/
theorem closesFrom_of_balancedFrom (h : balancedFrom q due cs = true) : ClosesFrom q due cs := by
  -- A character changes the place or the stack, so the text behind it is taken with any of these.
  induction cs generalizing q due with
  | nil =>
    obtain ⟨rfl, rfl⟩ := balancedFrom_nil.1 h
    exact .nil .nil
  | cons c rest ih =>
    cases q with
    | inside quote => exact .inside_cons (ih h)
    | escaped quote => exact ⟨c, rest, rfl, ih h⟩
    | outside =>
      rcases quote_or_bracket_or_plain c with hquote | hclosing | ⟨closing, hcloser⟩ | hplain
      · rw [balancedFrom_quote hquote] at h
        exact (ih h).opened hquote
      · obtain ⟨due, rfl⟩ := due_of_balancedFrom_closing hclosing h
        rw [balancedFrom_closing hclosing] at h
        exact Closes.cons .nil (ih h)
      · rw [balancedFrom_opening hcloser] at h
        exact Closes.opened hcloser (ih h)
      · rw [balancedFrom_silent hplain] at h
        obtain ⟨hquote, hbracket⟩ := plain_iff.2 hplain
        exact Closes.behind (.cons hquote hbracket .nil) (ih h)

theorem balanced_of_isBalanced (h : isBalanced cs = true) : Balanced cs := by
  cases closesFrom_of_balancedFrom h with
  | nil h => exact h

/-- The check for balance accepts the texts of the grammar and no others. -/
theorem isBalanced_iff_balanced (cs : List Char) : isBalanced cs = true ↔ Balanced cs :=
  ⟨balanced_of_isBalanced, isBalanced_of_balanced⟩

instance : DecidablePred Balanced := fun cs =>
  decidable_of_iff (isBalanced cs = true) ⟨balanced_of_isBalanced, isBalanced_of_balanced⟩

/-- A backslash at the very end takes the quote along, so the literal stays open. -/
example : Balanced ['\'', ')', '\\', '\\', '\''] ∧ ¬ Balanced ['\'', ')', '\\', '\''] := by
  decide

end Sluice.Source
