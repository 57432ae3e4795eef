/-
  Sluice.Proofs.Source.Splitting

  What splitting at a delimiter makes of a text, also of one whose brackets and quotes do not
  match. A text is cut at delimiters that a reader meets outside of strings and at depth zero, so
  it starts every piece as it started the text. That is all there is between one piece and the
  next, and it is what `Cut` says; the laws of splitting follow from it piece by piece.

  Trimming a piece changes nothing of this: blanks are no marks, and none of them is part of the
  marker whose bar does not separate.
-/

import Sluice.Proofs.Source.Joined

namespace Sluice

-- ============================================================================
-- Trimming
-- ============================================================================

namespace Text

/-- A text is what trimming leaves of it, with blanks around it. -/
theorem padded_trimChars (cs : List Char) : Padded (trimChars cs) cs := by
  have hend : cs.dropWhile isBlank =
      trimChars cs ++ ((cs.dropWhile isBlank).reverse.takeWhile isBlank).reverse := by
    rw [trimChars, trimWhile, dropEndWhile, ← List.reverse_append, List.takeWhile_append_dropWhile,
      List.reverse_reverse]
  refine ⟨cs.takeWhile isBlank, ((cs.dropWhile isBlank).reverse.takeWhile isBlank).reverse,
    fun c hc => List.mem_takeWhile_imp hc,
    fun c hc => List.mem_takeWhile_imp (List.mem_reverse.1 hc), ?_⟩
  rw [List.append_assoc, ← hend, List.takeWhile_append_dropWhile]

/-- Nothing is left to trim away after trimming. -/
theorem trimChars_trimChars (cs : List Char) : trimChars (trimChars cs) = trimChars cs := by
  obtain ⟨before, after, hbefore, hafter, hcs⟩ := padded_trimChars cs
  calc trimChars (trimChars cs)
      = trimChars (before ++ trimChars cs ++ after) :=
        (trimChars_surround hbefore hafter (trimChars cs)).symm
    _ = trimChars cs := congrArg trimChars hcs.symm

/-- Only blanks are trimmed away. -/
theorem mem_trimChars {c : Char} {cs : List Char} (hc : c ∈ cs) (hblank : isBlank c = false) :
    c ∈ trimChars cs := by
  obtain ⟨before, after, hbefore, hafter, hcs⟩ := padded_trimChars cs
  rw [hcs, List.mem_append, List.mem_append] at hc
  rcases hc with (hc | hc) | hc
  · rw [hbefore c hc] at hblank
    cases hblank
  · exact hc
  · rw [hafter c hc] at hblank
    cases hblank

end Text

namespace Source

-- ============================================================================
-- Blanks
-- ============================================================================

theorem stand_blank {c : Char} (hc : Text.isBlank c = true) (depth : Nat) :
    stand (.outside, depth) c = (.outside, depth) :=
  stand_silent (not_mark_of_isBlank hc).2 depth

theorem foldl_stand_blank {cs : List Char} (hcs : Text.Blank cs) (depth : Nat) :
    cs.foldl stand (.outside, depth) = (.outside, depth) := by
  induction cs with
  | nil => rfl
  | cons c cs ih =>
    rw [List.foldl_cons, stand_blank (hcs c List.mem_cons_self),
      ih fun d hd => hcs d (List.mem_cons_of_mem c hd)]

/-- Whether what follows on text without marks is balanced does not depend on that text. -/
theorem balancedFrom_silent_append {cs : List Char}
    (h : ∀ c ∈ cs, isQuote c = false ∧ isOpening c = false ∧ isClosing c = false)
    (due rest : List Char) :
    balancedFrom .outside due (cs ++ rest) = balancedFrom .outside due rest := by
  induction cs with
  | nil => rfl
  | cons c cs ih =>
    rw [List.cons_append, balancedFrom_silent (h c List.mem_cons_self),
      ih fun d hd => h d (List.mem_cons_of_mem c hd)]

theorem balancedFrom_blank {cs : List Char} (hcs : Text.Blank cs) (due rest : List Char) :
    balancedFrom .outside due (cs ++ rest) = balancedFrom .outside due rest :=
  balancedFrom_silent_append (fun c hc => (not_mark_of_isBlank (hcs c hc)).2) due rest

theorem isBalanced_blank {cs : List Char} (hcs : Text.Blank cs) : isBalanced cs = true := by
  have hrest := balancedFrom_blank hcs [] []
  rwa [List.append_nil] at hrest

/-- A string literal is opened by a quote. -/
def Quoting.Proper : Quoting → Prop
  | .outside => True
  | .inside quote | .escaped quote => isQuote quote = true

theorem Quoting.Proper.after {q : Quoting} (h : q.Proper) (c : Char) : (q.after c).Proper := by
  cases q with
  | outside =>
    by_cases hc : isQuote c = true
    · rwa [Quoting.after, if_pos hc]
    · rw [Quoting.after, if_neg hc]
      trivial
  | inside quote =>
    by_cases hslash : c = '\\'
    · rwa [Quoting.after, if_pos hslash]
    · by_cases hquote : c = quote
      · rw [Quoting.after, if_neg hslash, if_pos hquote]
        trivial
      · rwa [Quoting.after, if_neg hslash, if_neg hquote]
  | escaped quote => exact h

theorem Quoting.Proper.foldl {q : Quoting} (h : q.Proper) (depth : Nat) (cs : List Char) :
    (cs.foldl stand (q, depth)).1.Proper := by
  induction cs generalizing q depth with
  | nil => exact h
  | cons c cs ih => exact ih (h.after c) _

/-- No blank ends a string literal, so a reader outside of strings after some blanks stood outside
before them. -/
theorem eq_of_foldl_stand_blank {q : Quoting} (hq : q.Proper) {depth n : Nat} {cs : List Char}
    (hcs : Text.Blank cs) (h : cs.foldl stand (q, depth) = (.outside, n)) :
    (q, depth) = (.outside, n) := by
  induction cs generalizing q depth with
  | nil => exact h
  | cons c cs ih =>
    have hc := hcs c List.mem_cons_self
    have hnext := ih (hq.after c) (fun d hd => hcs d (List.mem_cons_of_mem c hd)) h
    cases q with
    | outside => rwa [← stand_blank hc depth]
    | inside quote =>
      have hslash : c ≠ '\\' := by
        rintro rfl
        cases hc
      have hquote : c ≠ quote := by
        rintro rfl
        have hopened : isQuote c = true := hq
        rw [(not_mark_of_isBlank hc).2.1] at hopened
        cases hopened
      have hinside := (Quoting.after_char hslash hquote).symm.trans (congrArg Prod.fst hnext)
      cases hinside
    | escaped quote => cases hnext

/-- Whether a text is balanced does not depend on the blanks around it. -/
theorem isBalanced_trimChars (cs : List Char) :
    isBalanced (Text.trimChars cs) = isBalanced cs := by
  obtain ⟨before, after, hbefore, hafter, hcs⟩ := Text.padded_trimChars cs
  generalize Text.trimChars cs = text at hcs
  have hfront : isBalanced cs = isBalanced (text ++ after) := by
    rw [hcs, List.append_assoc]
    exact balancedFrom_blank hbefore [] _
  rw [hfront, Bool.eq_iff_iff]
  constructor
  · intro h
    exact isBalanced_append h (isBalanced_blank hafter)
  · intro h
    have hproper : Quoting.outside.Proper := trivial
    have hplace := foldl_stand_of_balanced h 0
    rw [List.foldl_append] at hplace
    exact (balancedFrom_beginning h
      (eq_of_foldl_stand_blank (hproper.foldl 0 text) hafter hplace)).1

-- ============================================================================
-- Delimiters
-- ============================================================================

/-- A delimiter stands in a text outside of brackets and string literals, and not as the bar of a
marker. -/
def HasDelimiter (delimiter : Char) (cs : List Char) : Prop :=
  ∃ front c back, cs = front ++ c :: back ∧
    separates delimiter (front.foldl stand (.outside, 0)) front.getLast? c back = true

/-- A text is one piece where none of its characters separates. -/
theorem pieces_eq_singleton_iff {delimiter : Char} {q : Quoting} {depth : Nat}
    {before : Option Char} {cs : List Char} :
    pieces delimiter q depth before cs = [cs] ↔
      ∀ front c back, cs = front ++ c :: back →
        separates delimiter (front.foldl stand (q, depth)) (front.getLast?.or before) c back =
          false := by
  induction cs generalizing q depth before with
  | nil => simp [pieces]
  | cons x cs ih =>
    rw [pieces_cons_eq_singleton, ih]
    constructor
    · rintro ⟨hfirst, hrest⟩ front c back heq
      cases front with
      | nil =>
        cases heq
        exact hfirst
      | cons y front =>
        rw [List.cons_append, List.cons.injEq] at heq
        obtain ⟨rfl, hcs⟩ := heq
        rw [getLast?_cons_or]
        exact hrest front c back hcs
    · intro h
      refine ⟨h [] x cs rfl, fun front c back hcs => ?_⟩
      rw [← getLast?_cons_or]
      exact h (x :: front) c back (by rw [hcs, List.cons_append])

theorem single_iff {delimiter : Char} {cs : List Char} :
    pieces delimiter .outside 0 none cs = [cs] ↔ ¬ HasDelimiter delimiter cs := by
  rw [pieces_eq_singleton_iff]
  constructor
  · rintro h ⟨front, c, back, hcs, hseparates⟩
    have hnot := h front c back hcs
    rw [Option.or_none, hseparates] at hnot
    cases hnot
  · intro h front c back hcs
    rw [Option.or_none, ← Bool.not_eq_true]
    exact fun hseparates => h ⟨front, c, back, hcs, hseparates⟩

/-- A character that can delimit. The readers look at it for nothing else. -/
structure IsDelimiter (d : Char) : Prop where
  solid : Text.isBlank d = false
  plain : d ∉ marks
  opens : d ≠ '<'
  closes : d ≠ '>'

instance (d : Char) : Decidable (IsDelimiter d) :=
  decidable_of_iff (Text.isBlank d = false ∧ d ∉ marks ∧ d ≠ '<' ∧ d ≠ '>')
    ⟨fun h => ⟨h.1, h.2.1, h.2.2.1, h.2.2.2⟩, fun h => ⟨h.solid, h.plain, h.opens, h.closes⟩⟩

theorem IsDelimiter.not_mem {d : Char} (hd : IsDelimiter d) : d ∉ ' ' :: marks := by
  rw [List.mem_cons, not_or]
  refine ⟨?_, hd.plain⟩
  rintro rfl
  cases hd.solid

/-- Of its neighbours only the ends of a marker matter to whether a character separates. -/
theorem separates_congr {delimiter : Char} {place : Quoting × Nat} {before before' : Option Char}
    {c : Char} {rest rest' : List Char} (hbefore : before = some '<' ↔ before' = some '<')
    (hrest : rest.head? = some '>' ↔ rest'.head? = some '>') :
    separates delimiter place before c rest = separates delimiter place before' c rest' := by
  have hopens : (before == some '<') = (before' == some '<') := by
    rw [Bool.eq_iff_iff, beq_iff_eq, beq_iff_eq, hbefore]
  have hcloses : (rest.head? == some '>') = (rest'.head? == some '>') := by
    rw [Bool.eq_iff_iff, beq_iff_eq, beq_iff_eq, hrest]
  rw [separates, separates, isMarker, isMarker, hopens, hcloses]

/-- The character before a text matters only where it may open a marker. -/
theorem pieces_before_ne {delimiter : Char} {q : Quoting} {depth : Nat} {c : Char} (hc : c ≠ '<')
    (cs : List Char) :
    pieces delimiter q depth (some c) cs = pieces delimiter q depth none cs := by
  cases cs with
  | nil => rfl
  | cons x cs =>
    have hseparates : separates delimiter (q, depth) (some c) x cs =
        separates delimiter (q, depth) none x cs :=
      separates_congr (by simp [hc]) Iff.rfl
    rw [pieces_cons, pieces_cons, hseparates]

/-- A reader that meets a delimiter is outside of brackets and strings. -/
theorem of_separates {d : Char} (hd : IsDelimiter d) {q : Quoting} {depth : Nat}
    {before : Option Char} {c : Char} {rest : List Char}
    (h : separates d (q, depth) before c rest = true) :
    c = d ∧ q = .outside ∧ depth = 0 ∧ isMarker before d rest = false := by
  rw [separates, Bool.and_eq_true, Bool.and_eq_true, Bool.and_eq_true] at h
  obtain ⟨⟨⟨hq, hc⟩, hdepth⟩, hmarker⟩ := h
  obtain rfl : q = .outside := beq_iff_eq.1 hq
  obtain rfl : c = d := beq_iff_eq.1 hc
  rw [stand_plain hd.plain, beq_iff_eq] at hdepth
  exact ⟨rfl, rfl, hdepth, by simpa using hmarker⟩

theorem separates_of_not_marker {d : Char} (hd : IsDelimiter d) {before : Option Char}
    {rest : List Char} (h : isMarker before d rest = false) :
    separates d (.outside, 0) before d rest = true := by
  rw [separates, stand_plain hd.plain, h]
  simp

-- ============================================================================
-- Cutting a text
-- ============================================================================

/-- The pieces of a text between its delimiters. Each of them is one piece by itself, and at its
end a reader that started it outside of brackets and strings is outside again. -/
inductive Cut (d : Char) : List Char → List (List Char) → Prop where
  | last {piece : List Char} (hsingle : pieces d .outside 0 none piece = [piece]) :
    Cut d piece [piece]
  | more {piece rest : List Char} {others : List (List Char)}
    (hsingle : pieces d .outside 0 none piece = [piece])
    (hplace : piece.foldl stand (.outside, 0) = (.outside, 0))
    (hmarker : isMarker piece.getLast? d rest = false) (hrest : Cut d rest others) :
    Cut d (piece ++ d :: rest) (piece :: others)

section

variable {d : Char} (hd : IsDelimiter d)
include hd

/-- The first piece, and what is behind it. -/
theorem pieces_head {q : Quoting} {depth : Nat} {before : Option Char} {cs piece : List Char}
    {others : List (List Char)} (h : pieces d q depth before cs = piece :: others) :
    pieces d q depth before piece = [piece] ∧
      ((cs = piece ∧ others = []) ∨
        ∃ rest, cs = piece ++ d :: rest ∧ piece.foldl stand (q, depth) = (.outside, 0) ∧
          isMarker (piece.getLast?.or before) d rest = false ∧
          pieces d .outside 0 none rest = others) := by
  induction cs generalizing q depth before piece others with
  | nil =>
    cases h
    exact ⟨rfl, .inl ⟨rfl, rfl⟩⟩
  | cons c cs ih =>
    rw [pieces_cons] at h
    split at h
    · next hseparates =>
      cases h
      obtain ⟨rfl, rfl, rfl, hmarker⟩ := of_separates hd hseparates
      rw [stand_plain hd.plain,
        pieces_before_ne hd.opens]
      exact ⟨rfl, .inr ⟨cs, rfl, rfl, hmarker, rfl⟩⟩
    · next hseparates =>
      generalize hplace : stand (q, depth) c = place at h
      cases hcs : pieces d place.1 place.2 (some c) cs with
      | nil => exact absurd hcs (pieces_ne_nil d place.1 place.2 (some c) cs)
      | cons next more =>
        rw [hcs] at h
        cases h
        obtain ⟨hnext, hbehind⟩ := ih hcs
        -- The delimiter behind the piece is not the end of a marker either.
        have hhead : cs.head? = some '>' ↔ next.head? = some '>' := by
          rcases hbehind with ⟨rfl, -⟩ | ⟨rest, rfl, -⟩
          · rfl
          · cases next with
            | nil => simp [hd.closes]
            | cons x next => rfl
        rw [separates_congr Iff.rfl hhead, Bool.not_eq_true] at hseparates
        refine ⟨pieces_cons_eq_singleton.2 ⟨hseparates, by rwa [hplace]⟩, ?_⟩
        rcases hbehind with ⟨rfl, rfl⟩ | ⟨rest, rfl, hfold, hmarker, hrest⟩
        · exact .inl ⟨rfl, rfl⟩
        · rw [getLast?_cons_or, List.foldl_cons, hplace]
          exact .inr ⟨rest, rfl, hfold, hmarker, hrest⟩

theorem cut_pieces (cs : List Char) : Cut d cs (pieces d .outside 0 none cs) := by
  generalize hpieces : pieces d .outside 0 none cs = ps
  induction ps generalizing cs with
  | nil => exact absurd hpieces (pieces_ne_nil d .outside 0 none cs)
  | cons piece others ih =>
    obtain ⟨hsingle, ⟨rfl, rfl⟩ | ⟨rest, rfl, hplace, hmarker, hrest⟩⟩ := pieces_head hd hpieces
    · exact .last hsingle
    · rw [Option.or_none] at hmarker
      exact .more hsingle hplace hmarker (ih rest hrest)

/-- The pieces are where the delimiters are, and nowhere else. -/
theorem Cut.pieces_eq {cs : List Char} {ps : List (List Char)} (h : Cut d cs ps) :
    pieces d .outside 0 none cs = ps := by
  induction h with
  | last hsingle => exact hsingle
  | more hsingle hplace hmarker _ ih =>
    rw [pieces_append hsingle, hplace, pieces_cons, Option.or_none,
      if_pos (separates_of_not_marker hd hmarker),
      stand_plain hd.plain, pieces_before_ne hd.opens, ih,
      Text.consHead_foldr, List.append_nil]

end

namespace Cut

variable {d : Char} {cs : List Char} {ps : List (List Char)}

theorem ne_nil (h : Cut d cs ps) : ps ≠ [] := by
  cases h <;> exact List.cons_ne_nil _ _

/-- The pieces with delimiters between them are the text. -/
theorem joinWith_eq (h : Cut d cs ps) : Text.joinWith [d] ps = cs := by
  induction h with
  | last _ => rfl
  | @more piece rest others _ _ _ hrest ih =>
    obtain ⟨next, more, hothers⟩ := List.exists_cons_of_ne_nil hrest.ne_nil
    rw [hothers] at ih ⊢
    rw [Text.joinWith_cons_cons, ih, List.append_assoc, List.singleton_append]

theorem single (h : Cut d cs ps) : ∀ piece ∈ ps, pieces d .outside 0 none piece = [piece] := by
  induction h with
  | last hsingle => exact List.forall_mem_singleton.2 hsingle
  | more hsingle _ _ _ ih => exact List.forall_mem_cons.2 ⟨hsingle, ih⟩

/-- Delimiters stand between the brackets of a balanced text, so its pieces are balanced. -/
theorem balanced (h : Cut d cs ps) (hd : IsDelimiter d) (hcs : isBalanced cs = true) :
    ∀ piece ∈ ps, isBalanced piece = true := by
  induction h with
  | last _ => exact List.forall_mem_singleton.2 hcs
  | more _ hplace _ _ ih =>
    obtain ⟨hpiece, hdelimited⟩ := balancedFrom_beginning hcs hplace
    rw [isBalanced, balancedFrom_silent (not_mark hd.plain)] at hdelimited
    exact List.forall_mem_cons.2 ⟨hpiece, ih hdelimited⟩

end Cut

/-- Trimming a text that is one piece leaves one piece. -/
theorem single_trimChars {d : Char} {cs : List Char}
    (h : pieces d .outside 0 none cs = [cs]) :
    pieces d .outside 0 none (Text.trimChars cs) = [Text.trimChars cs] := by
  obtain ⟨before, after, hbefore, hafter, hcs⟩ := Text.padded_trimChars cs
  generalize Text.trimChars cs = text at hcs ⊢
  subst hcs
  rw [pieces_eq_singleton_iff] at h ⊢
  intro front c back htext
  have hwhole := h (before ++ front) c (back ++ after) (by simp [htext])
  -- No end of a marker is among the blanks.
  have hopens : (front.getLast?.or none = some '<') ↔
      ((before ++ front).getLast?.or none = some '<') := by
    rw [Option.or_none, Option.or_none, List.getLast?_append]
    cases hlast : front.getLast? with
    | some x => rfl
    | none =>
      rw [Option.none_or]
      constructor
      · intro hnone
        cases hnone
      · intro hblank
        exact absurd (hbefore _ (List.mem_of_getLast? hblank)) (by decide)
  have hcloses : back.head? = some '>' ↔ (back ++ after).head? = some '>' := by
    cases back with
    | cons x back => rfl
    | nil =>
      constructor
      · intro hnone
        cases hnone
      · intro hblank
        exact absurd (hafter _ (List.mem_of_head? hblank)) (by decide)
  rw [List.foldl_append, foldl_stand_blank hbefore] at hwhole
  rw [separates_congr hopens hcloses]
  exact hwhole

-- ============================================================================
-- The laws of splitting
-- ============================================================================

/-- The laws of a reader that splits the texts which it admits at a delimiter, against a writer
that joins segments with a separator. -/
structure SplitsAt (delimiter : Char) (separator : List Char)
    (split : List Char → List (List Char)) (admits : List Char → Prop) : Prop where
  /-- Nothing is lost and nothing invented, but for blanks around the parts. -/
  pieces : ∀ cs, admits cs → ∃ pieces, split cs = pieces.map Text.trimChars ∧
    Text.joinWith [delimiter] pieces = cs
  /-- There is nothing left to split in a part. -/
  again : ∀ cs, admits cs → ∀ part ∈ split cs, ¬ Text.Blank part → split part = [part]
  /-- No bracket and no string is cut in two. -/
  balanced : ∀ cs, admits cs → isBalanced cs = true → ∀ part ∈ split cs, isBalanced part = true
  /-- What was joined is found again. -/
  joined : ∀ segments, segments ≠ [] →
    (∀ s ∈ segments, ¬ Text.Blank s ∧ isBalanced s = true ∧ ¬ HasDelimiter delimiter s) →
    split (Text.joinWith separator segments) = segments.map Text.trimChars

/-- A reader that splits every text it admits at the top level keeps the laws. -/
theorem splitsAt_of_splitTopLevel {d : Char} (hd : IsDelimiter d) (lead : List Char)
    (hlead : ∀ c ∈ lead, c = ' ') {split : List Char → List (List Char)}
    {admits : List Char → Prop} (hsplit : ∀ cs, admits cs → split cs = splitTopLevel d cs)
    (hadmits : ∀ cs, ¬ Text.Blank cs → admits cs) : SplitsAt d (lead ++ [d, ' ']) split admits where
  pieces cs hcs := ⟨_, hsplit cs hcs, (cut_pieces hd cs).joinWith_eq⟩
  again cs hcs part hpart hsolid := by
    rw [hsplit cs hcs] at hpart
    obtain ⟨piece, hpiece, rfl⟩ := List.mem_map.1 hpart
    have hsingle := single_trimChars ((cut_pieces hd cs).single piece hpiece)
    rw [hsplit _ (hadmits _ hsolid), splitTopLevel, hsingle, List.map_singleton,
      Text.trimChars_trimChars]
  balanced cs hcs hbalanced part hpart := by
    rw [hsplit cs hcs] at hpart
    obtain ⟨piece, hpiece, rfl⟩ := List.mem_map.1 hpart
    rw [isBalanced_trimChars]
    exact (cut_pieces hd cs).balanced hd hbalanced piece hpiece
  joined segments hne hsegments := by
    obtain ⟨first, others, rfl⟩ := List.exists_cons_of_ne_nil hne
    have hsolid : ¬ Text.Blank (Text.joinWith (lead ++ [d, ' ']) (first :: others)) := by
      obtain ⟨tail, htail⟩ := Text.joinWith_cons (lead ++ [d, ' ']) first others
      rw [htail]
      exact fun hblank => (hsegments first List.mem_cons_self).1 fun c hc =>
        hblank c (List.mem_append_left tail hc)
    have hwhole : ∀ s ∈ first :: others, Whole d s :=
      fun s hs => ⟨(hsegments s hs).2.1, single_iff.2 (hsegments s hs).2.2⟩
    rw [hsplit _ (hadmits _ hsolid)]
    exact splitTopLevel_joined hd.not_mem lead hlead hwhole (List.forall_mem_nil _)

/-- Lines are split at bars and rows of arguments at commas, outside of brackets and strings: the
parts make up the text, have nothing left to split, and are balanced if the text is; and balanced
segments without such a delimiter are found again in what they are joined to. -/
theorem splits_at_top_level :
    SplitsAt '|' [' ', '|', ' '] splitPipes (fun _ => True) ∧
      SplitsAt ',' [',', ' '] splitArgs (fun cs => ¬ Text.Blank cs) := by
  constructor
  · exact splitsAt_of_splitTopLevel (by decide) [' '] (by simp) (fun _ _ => rfl)
      fun _ _ => trivial
  · refine splitsAt_of_splitTopLevel (by decide) [] (List.forall_mem_nil _)
      (fun cs hcs => ?_) fun _ h => h
    rw [splitArgs, if_neg]
    rw [List.isEmpty_iff, Text.trimChars_eq_nil_iff]
    exact hcs

/-- Segments with bars in a string, in brackets and in a marker. -/
theorem splits_at_top_level_barred :
    splitPipes "~ \"a|b\" | f('|', (2 | 3)) |  <|> 1".toList =
      ["~ \"a|b\"".toList, "f('|', (2 | 3))".toList, "<|> 1".toList] :=
  splits_at_top_level.1.joined
    ["~ \"a|b\"".toList, "f('|', (2 | 3))".toList, " <|> 1".toList] (List.cons_ne_nil _ _) <| by
      have hsegments : ∀ s ∈ ["~ \"a|b\"".toList, "f('|', (2 | 3))".toList, " <|> 1".toList],
          Text.trimChars s ≠ [] ∧ isBalanced s = true ∧ pieces '|' .outside 0 none s = [s] := by
        decide +kernel
      intro s hs
      obtain ⟨hsolid, hbalanced, hsingle⟩ := hsegments s hs
      exact ⟨Text.trimChars_eq_nil_iff.not.1 hsolid, hbalanced, single_iff.1 hsingle⟩

end Source

end Sluice
