/-
  Sluice.Proofs.Program.Enclosed

  Operators whose brackets do not belong together. Behind a name stands something between
  brackets, and the reader of a segment looks only at its first and its last character. In a
  balanced segment these are a pair exactly if the arguments, or the body, between them are
  balanced by themselves. Where they are not, as in two calls without a bar in between, the
  segment is read all the same, with arguments that are torn out of two pairs.
-/

import Sluice.Proofs.Program.Draft
import Sluice.Proofs.Source.Splitting

namespace Sluice

-- ============================================================================
-- Brackets that belong together
-- ============================================================================

namespace Source

/-- The bracket that a text opens first is due up to its last character: no proper beginning of
the text is balanced. -/
def ClosedAtEnd (cs : List Char) : Prop :=
  ∀ front back, cs = front ++ back → front ≠ [] → isBalanced front = true → back = []

/-- One character of a balanced text, when one bracket is due around all others: it closes this
bracket, or it leaves it due. -/
theorem closes_or_stays {q : Quoting} {due : List Char} {last c : Char} {rest : List Char}
    (h : balancedFrom q (due ++ [last]) (c :: rest) = true) :
    balancedFrom q (due ++ [last]) [c] = true ∨
      ∃ due', ∀ more tail, balancedFrom q (due ++ more) (c :: tail) =
        balancedFrom (q.after c) (due' ++ more) tail := by
  cases q with
  | inside quote => exact .inr ⟨due, fun more tail => rfl⟩
  | escaped quote => exact .inr ⟨due, fun more tail => rfl⟩
  | outside =>
    by_cases hopening : isOpening c = true
    · obtain ⟨closer, hcloser⟩ := exists_closerOf? hopening
      rw [Quoting.outside_after (isQuote_of_opening hopening)]
      exact .inr ⟨closer :: due, fun more tail => balancedFrom_opening hcloser _ _⟩
    by_cases hclosing : isClosing c = true
    · obtain ⟨after, hdue⟩ := due_of_balancedFrom_closing hclosing h
      rw [Quoting.outside_after (isQuote_of_closing hclosing)]
      cases due with
      | nil =>
        obtain ⟨rfl, -⟩ := List.cons.inj hdue
        exact .inl (balancedFrom_closing hclosing [] [])
      | cons closer due =>
        obtain ⟨rfl, -⟩ := List.cons.inj hdue
        exact .inr ⟨due, fun more tail => balancedFrom_closing hclosing _ _⟩
    · rw [Bool.not_eq_true] at hopening hclosing
      exact .inr ⟨due, fun more tail => balancedFrom_after hopening hclosing _ _⟩

/-- A beginning of such a text closes the outer bracket somewhere, or leaves it due to its end. -/
theorem closes_or_reaches {q : Quoting} {due cs rest : List Char} {last : Char}
    (h : balancedFrom q (due ++ [last]) (cs ++ rest) = true) :
    (∃ front back, cs = front ++ back ∧ balancedFrom q (due ++ [last]) front = true) ∨
      ∃ q' due', ∀ more tail, balancedFrom q (due ++ more) (cs ++ tail) =
        balancedFrom q' (due' ++ more) tail := by
  induction cs generalizing q due with
  | nil => exact .inr ⟨q, due, fun more tail => rfl⟩
  | cons c cs ih =>
    rw [List.cons_append] at h
    obtain hcloses | ⟨due₁, hstep⟩ := closes_or_stays h
    · exact .inl ⟨[c], cs, rfl, hcloses⟩
    · rw [hstep] at h
      obtain ⟨front, back, rfl, hcloses⟩ | ⟨q', due', hreaches⟩ := ih h
      · exact .inl ⟨c :: front, back, rfl, by rw [hstep, hcloses]⟩
      · refine .inr ⟨q', due', fun more tail => ?_⟩
        rw [List.cons_append, hstep, hreaches]

/-- A closing bracket is the end of a balanced text only outside of strings and when it is the
only one due. -/
theorem eq_outside_of_closing {q : Quoting} {due : List Char} {last closing : Char}
    (hclosing : isClosing closing = true)
    (h : balancedFrom q (due ++ [last]) [closing] = true) : q = .outside ∧ due = [] := by
  cases q with
  | outside =>
    obtain ⟨after, hdue⟩ := due_of_balancedFrom_closing hclosing h
    rw [hdue, balancedFrom_closing hclosing] at h
    rw [(balancedFrom_nil.1 h).2] at hdue
    have hlength := congrArg List.length hdue
    rw [List.length_append] at hlength
    exact ⟨rfl, List.length_eq_zero_iff.1 (Nat.succ.inj hlength)⟩
  | inside quote => simp [balancedFrom] at h
  | escaped quote => simp [balancedFrom] at h

/-- The outer brackets of a balanced text are a pair exactly if what stands between them is
balanced. -/
theorem closedAtEnd_iff {opening closing : Char} {inner : List Char}
    (hopening : isOpening opening = true) (hclosing : isClosing closing = true)
    (h : isBalanced (opening :: (inner ++ [closing])) = true) :
    ClosedAtEnd (opening :: (inner ++ [closing])) ↔ isBalanced inner = true := by
  obtain ⟨last, hlast⟩ := exists_closerOf? hopening
  have hopens : ∀ cs, isBalanced (opening :: cs) = balancedFrom .outside [last] cs :=
    fun cs => balancedFrom_opening hlast [] cs
  rw [hopens] at h
  constructor
  · intro hpair
    have hdue : balancedFrom .outside ([] ++ [last]) (inner ++ [closing]) = true := h
    obtain ⟨front, back, rfl, hcloses⟩ | ⟨q', due', hreaches⟩ := closes_or_reaches hdue
    · have hnot := hpair (opening :: front) (back ++ [closing]) (by simp) (List.cons_ne_nil _ _)
        (by rw [hopens]; exact hcloses)
      simp at hnot
    · have hend := hreaches [last] [closing]
      rw [List.nil_append, h] at hend
      obtain ⟨rfl, rfl⟩ := eq_outside_of_closing hclosing hend.symm
      have halone := hreaches [] []
      rwa [List.append_nil, List.append_nil] at halone
  · intro hinner front back hsplit hne hfront
    cases front with
    | nil => exact absurd rfl hne
    | cons c front =>
      rw [List.cons_append, List.cons.injEq] at hsplit
      obtain ⟨rfl, hsplit⟩ := hsplit
      rw [hopens] at hfront
      rcases List.eq_nil_or_concat back with rfl | ⟨back, d, rfl⟩
      · rfl
      · -- The beginning ends inside of the brackets, where the outer one is still due.
        rw [List.concat_eq_append, ← List.append_assoc] at hsplit
        obtain ⟨rfl, -⟩ := List.append_inj' hsplit rfl
        obtain ⟨q', due', -, -, hreaches⟩ := balancedFrom_reaches hinner
        have hdue := hreaches [last] []
        rw [List.append_nil, List.nil_append, hfront] at hdue
        have hempty := (balancedFrom_nil.1 hdue.symm).2
        simp at hempty

/-- What is joined from balanced texts is balanced. -/
theorem isBalanced_joinWith {d : Char} (hd : IsDelimiter d) {parts : List (List Char)}
    (h : ∀ part ∈ parts, isBalanced part = true) : isBalanced (Text.joinWith [d] parts) = true := by
  induction parts with
  | nil => rfl
  | cons part parts ih =>
    cases parts with
    | nil => exact h part List.mem_cons_self
    | cons next parts =>
      obtain ⟨hpart, hrest⟩ := List.forall_mem_cons.1 h
      have hsilent := not_mark hd.plain
      rw [Text.joinWith_cons_cons, List.append_assoc, List.singleton_append]
      exact isBalanced_append hpart ((balancedFrom_silent hsilent [] _).trans (ih hrest))

/-- A row of arguments is balanced exactly if each of them is. -/
theorem isBalanced_splitArgs (cs : List Char) :
    (∀ part ∈ splitArgs cs, isBalanced part = true) ↔ isBalanced cs = true := by
  have hcomma : IsDelimiter ',' := by decide
  rw [splitArgs]
  split
  · next hempty =>
    rw [List.isEmpty_iff, Text.trimChars_eq_nil_iff] at hempty
    exact iff_of_true (List.forall_mem_nil _) (isBalanced_blank hempty)
  · have hcut := cut_pieces hcomma cs
    rw [splitTopLevel, List.forall_mem_map]
    simp only [isBalanced_trimChars]
    constructor
    · intro h
      rw [← hcut.joinWith_eq]
      exact isBalanced_joinWith hcomma h
    · exact fun h => hcut.balanced hcomma h

end Source

-- ============================================================================
-- Reading operators
-- ============================================================================

namespace Segment

open Source (isBalanced ClosedAtEnd splitArgs)

/-- What stands behind the name of an operator. -/
def afterName (source : List Char) : List Char :=
  Text.trimChars ((Text.trimChars source).dropWhile isNameChar)

/-- The arguments of a segment, and the body of a lens, are balanced. -/
structure Balanced (segment : Segment) : Prop where
  arguments : ∀ text, Argument.source text ∈ segment.arguments → isBalanced text.toList = true
  body : ∀ lens body, segment.kind = .lens lens body → isBalanced body.raw.toList = true

/-- Text between brackets, with its brackets. -/
theorem eq_of_isBetween {opening closing : Char} (hne : opening ≠ closing) {cs : List Char}
    (h : isBetween opening closing cs = true) : cs = opening :: (within cs ++ [closing]) := by
  rw [isBetween, Bool.and_eq_true, beq_iff_eq, beq_iff_eq] at h
  obtain ⟨hhead, hlast⟩ := h
  obtain ⟨rest, rfl⟩ := List.head?_eq_some_iff.1 hhead
  rcases List.eq_nil_or_concat rest with rfl | ⟨inner, c, rfl⟩
  · cases hlast
    exact absurd rfl hne
  · rw [List.concat_eq_append, ← List.cons_append, List.getLast?_concat] at hlast
    cases hlast
    rw [List.concat_eq_append, within, List.tail_cons, List.dropLast_concat]

/-- What is read behind a name: nothing, the body of a lens, or arguments. -/
inductive Reads (rest : List Char) (segment : Segment) : Prop where
  | bare (hrest : rest = []) (harguments : segment.arguments = [])
    (hkind : ∀ lens body, segment.kind ≠ .lens lens body)
  | lens (hrest : isBetween '\x7b' '\x7d' rest = true) (harguments : segment.arguments = [])
    (hkind : ∃ lens body, segment.kind = .lens lens body ∧
      body.raw = String.ofList (Text.trimChars (within rest)))
  | call (hrest : isBetween '(' ')' rest = true)
    (harguments : segment.arguments =
      (splitArgs (within rest)).map fun part => .source (String.ofList part))
    (hkind : ∀ lens body, segment.kind ≠ .lens lens body)

/-- Nothing stands behind a branch keyword. -/
theorem afterName_keyword {source : List Char} {expects : Bool}
    (h : branchOfKeyword? (Text.trimChars source) = some expects) : afterName source = [] := by
  have hword : ∀ b, Text.trimChars source = (branchKeyword b).toList → afterName source = [] := by
    intro b hb
    rw [afterName, hb]
    cases b <;> decide
  unfold branchOfKeyword? at h
  split at h
  · exact hword true (by assumption)
  · split at h
    · exact hword false (by assumption)
    · cases h

theorem reads_of_readCall {name source rest : List Char} {segment : Segment}
    (hrest : isBetween '(' ')' rest = true)
    (h : readCall name source (within rest) = .ok segment) : Reads rest segment := by
  unfold readCall at h
  simp only at h
  split at h
  · split at h
    · split at h
      · cases h
        exact .call hrest rfl (by simp)
      · cases h
    · cases h
  · cases h
    exact .call hrest rfl (by simp)

theorem raw_of_readBody {source : List Char} {body : LensBody} (h : readBody source = .ok body) :
    body.raw = String.ofList (Text.trimChars source) := by
  unfold readBody at h
  simp only at h
  split at h
  · cases h
  · split at h
    · cases h
    · cases h
      rfl

theorem reads_of_readChars {source : List Char} {segment : Segment}
    (h : readChars source = .ok segment) : Reads (afterName source) segment := by
  unfold readChars at h
  simp only at h
  split at h
  · cases h
  · split at h
    · next expects hkeyword =>
      cases h
      exact .bare (afterName_keyword hkeyword) rfl (by simp)
    · split at h
      · cases h
      · split at h
        · next hrest =>
          cases h
          exact .bare (List.isEmpty_iff.1 hrest) rfl (by simp)
        · split at h
          · next hrest =>
            split at h
            · cases h
            · split at h
              · cases h
              · next body hbody =>
                cases h
                exact .lens hrest rfl ⟨_, _, rfl, raw_of_readBody hbody⟩
          · split at h
            · next hrest => exact reads_of_readCall hrest h
            · cases h

/-- Behind the name, a balanced segment is balanced. -/
theorem isBalanced_afterName {source : List Char} (h : isBalanced source = true) :
    isBalanced (afterName source) = true := by
  rw [afterName, Source.isBalanced_trimChars]
  rw [← Source.isBalanced_trimChars,
    ← List.takeWhile_append_dropWhile (p := isNameChar) (l := Text.trimChars source)] at h
  rwa [isBalanced, Source.balancedFrom_silent_append] at h
  intro c hc
  refine Source.not_mark fun hmark => ?_
  have hname := List.mem_takeWhile_imp hc
  rw [Draft.isNameChar_of_mem_marks (List.mem_append_left _ hmark)] at hname
  cases hname

/-- The brackets behind the name of a balanced operator are a pair exactly if all arguments, and
the body of a lens, are balanced. -/
theorem balanced_iff_closedAtEnd {source : List Char} {segment : Segment}
    (hbalanced : isBalanced source = true) (hread : readChars source = .ok segment) :
    segment.Balanced ↔ ClosedAtEnd (afterName source) := by
  have hrest := isBalanced_afterName hbalanced
  cases reads_of_readChars hread with
  | bare hnone harguments hkind =>
    refine iff_of_true ⟨?_, fun lens body h => absurd h (hkind lens body)⟩ ?_
    · intro text htext
      rw [harguments] at htext
      cases htext
    · intro front back hsplit hne
      rw [hnone, eq_comm, List.append_eq_nil_iff] at hsplit
      exact absurd hsplit.1 hne
  | lens hbraces harguments hkind =>
    obtain ⟨lens, body, hkind, hraw⟩ := hkind
    rw [eq_of_isBetween (by decide) hbraces] at hrest ⊢
    rw [Source.closedAtEnd_iff rfl rfl hrest, ← Source.isBalanced_trimChars]
    constructor
    · intro h
      have hbody := h.body lens body hkind
      rwa [hraw, String.toList_ofList] at hbody
    · intro h
      refine ⟨fun text htext => ?_, fun lens' body' hkind' => ?_⟩
      · rw [harguments] at htext
        cases htext
      · rw [hkind] at hkind'
        cases hkind'
        rwa [hraw, String.toList_ofList]
  | call hparentheses harguments hkind =>
    rw [eq_of_isBetween (by decide) hparentheses] at hrest ⊢
    rw [Source.closedAtEnd_iff rfl rfl hrest, ← Source.isBalanced_splitArgs]
    constructor
    · intro h part hpart
      have htext := h.arguments (String.ofList part)
        (by rw [harguments]; exact List.mem_map.2 ⟨part, hpart, rfl⟩)
      rwa [String.toList_ofList] at htext
    · intro h
      refine ⟨fun text htext => ?_, fun lens body hlens => absurd hlens (hkind lens body)⟩
      rw [harguments] at htext
      obtain ⟨part, hpart, heq⟩ := List.mem_map.1 htext
      cases heq
      rw [String.toList_ofList]
      exact h part hpart

/-- A lens with a closing brace in a string. -/
theorem balanced_iff_closedAtEnd_braces :
    ∃ segment, readChars "map \x7badd(1) | concat('\x7d')\x7d".toList = .ok segment ∧
      segment.Balanced := by
  have hread : (readChars "map \x7badd(1) | concat('\x7d')\x7d".toList).isOk = true := by
    decide +kernel
  have hpair : ClosedAtEnd ('\x7b' :: ("add(1) | concat('\x7d')".toList ++ ['\x7d'])) :=
    (Source.closedAtEnd_iff rfl rfl (by decide)).2 (by decide)
  cases hcase : readChars "map \x7badd(1) | concat('\x7d')\x7d".toList with
  | error e =>
    rw [hcase] at hread
    cases hread
  | ok segment =>
    exact ⟨segment, rfl, (balanced_iff_closedAtEnd (by decide) hcase).2 hpair⟩

/-- Two calls without a bar in between are balanced, and they are read as one call, with an
argument that is not. -/
theorem reads_adjacent_calls :
    isBalanced "add(1) add(2)".toList = true ∧
      readChars "add(1) add(2)".toList =
        .ok ⟨.operator, "add", [.source "1) add(2"], "add(1) add(2)"⟩ ∧
      isBalanced "1) add(2".toList = false := by
  have hopens : Draft.Opens "add".toList ('(' :: ("1) add(2".toList ++ [')'])) :=
    ⟨by decide, by rintro c ⟨⟩; decide, ⟨⟨'a', rfl, rfl⟩, ')', rfl, rfl⟩, by decide⟩
  exact ⟨by decide, hopens.readChars_parentheses, by decide⟩

end Segment

end Sluice
