/-
  Sluice.Proofs.Source.Pieces

  What splitting does to text that was put together from closed parts.

  A text is closed when its string literals end and its brackets come in pairs, so a reader that
  enters it outside of strings leaves it outside of strings, and as deep in brackets as before.
  Joining closed parts with commas is undone by `splitArgs` up to blanks at their ends, and a
  closed key is what `splitKeyValue` finds before the colon.
-/

import Mathlib.Data.List.TakeWhile
import Sluice.Source.Split

namespace Sluice

-- ============================================================================
-- Trimming
-- ============================================================================

namespace Text

/-- Nothing but blanks. -/
def Blank (cs : List Char) : Prop :=
  ∀ c ∈ cs, isBlank c = true

/-- A text that neither starts nor ends with a blank, and is not empty. -/
def Solid (cs : List Char) : Prop :=
  (∃ c, cs.head? = some c ∧ isBlank c = false) ∧ ∃ c, cs.getLast? = some c ∧ isBlank c = false

/-- A text with blanks around it. -/
def Padded (text piece : List Char) : Prop :=
  ∃ before after, Blank before ∧ Blank after ∧ piece = before ++ text ++ after

theorem dropWhile_blank_of_head {cs : List Char} {c : Char} (hhead : cs.head? = some c)
    (hc : isBlank c = false) : cs.dropWhile isBlank = cs := by
  cases cs with
  | nil => rfl
  | cons d cs =>
    cases hhead
    exact List.dropWhile_cons_of_neg (by simp [hc])

/-- Trimming takes the blanks around a text away. -/
theorem trimChars_of_padded {text piece : List Char} (hsolid : Solid text)
    (hpiece : Padded text piece) : trimChars piece = text := by
  obtain ⟨a, b, ha, hb, rfl⟩ := hpiece
  obtain ⟨⟨c, hhead, hc⟩, d, hlast, hd⟩ := hsolid
  have hfront : (a ++ text ++ b).dropWhile isBlank = text ++ b := by
    rw [List.append_assoc, List.dropWhile_append_of_pos ha]
    exact dropWhile_blank_of_head (by rw [List.head?_append, hhead]; rfl) hc
  have hback : (b.reverse ++ text.reverse).dropWhile isBlank = text.reverse := by
    rw [List.dropWhile_append_of_pos fun c hc => hb c (List.mem_reverse.1 hc)]
    exact dropWhile_blank_of_head (List.head?_reverse.trans hlast) hd
  rw [trimChars, trimWhile, dropEndWhile, hfront, List.reverse_append, hback,
    List.reverse_reverse]

theorem Padded.self (text : List Char) : Padded text text :=
  ⟨[], [], fun _ h => absurd h List.not_mem_nil, fun _ h => absurd h List.not_mem_nil, by simp⟩

theorem trimChars_of_solid {text : List Char} (hsolid : Solid text) : trimChars text = text :=
  trimChars_of_padded hsolid (Padded.self text)

/-- Only blanks trim to nothing. -/
theorem trimChars_eq_nil_iff {cs : List Char} : trimChars cs = [] ↔ Blank cs := by
  rw [trimChars, trimWhile, dropEndWhile, List.reverse_eq_nil_iff, List.dropWhile_eq_nil_iff]
  constructor
  · intro h
    refine List.dropWhile_eq_nil_iff.1 (List.eq_nil_iff_forall_not_mem.2 fun c hc => ?_)
    -- What is left after the leading blanks would start with no blank.
    match hrest : cs.dropWhile isBlank with
    | [] => simp [hrest] at hc
    | d :: rest =>
      have hnot := List.head?_dropWhile_not isBlank cs
      have hd := h d (List.mem_reverse.2 (hrest ▸ List.mem_cons_self))
      simp [hrest, hd] at hnot
  · intro h c hc
    exact h c ((List.dropWhile_suffix isBlank).subset (List.mem_reverse.1 hc))

theorem Solid.not_blank {text : List Char} (hsolid : Solid text) : ¬ Blank text := by
  obtain ⟨⟨c, hhead, hc⟩, -⟩ := hsolid
  intro hblank
  rw [hblank c (List.mem_of_head? hhead)] at hc
  cases hc

theorem solid_of_not_blank {cs : List Char} (h : ∀ c ∈ cs, isBlank c = false) (hne : cs ≠ []) :
    Solid cs :=
  ⟨⟨cs.head hne, List.head?_eq_some_head hne, h _ (List.head_mem hne)⟩,
    cs.getLast hne, List.getLast?_eq_some_getLast hne, h _ (List.getLast_mem hne)⟩

/-- Text between brackets or quotes neither starts nor ends with a blank. -/
theorem solid_brackets {opening closing : Char} (hopening : isBlank opening = false)
    (hclosing : isBlank closing = false) (inner : List Char) :
    Solid (opening :: (inner ++ [closing])) :=
  ⟨⟨opening, rfl, hopening⟩,
    closing, by rw [← List.cons_append]; exact List.getLast?_concat, hclosing⟩

theorem Padded.not_blank {text piece : List Char} (hsolid : Solid text)
    (hpiece : Padded text piece) : ¬ Blank piece := by
  obtain ⟨a, b, -, -, rfl⟩ := hpiece
  exact fun hblank => hsolid.not_blank fun c hc => hblank c (by simp [hc])

theorem consHead_foldr (t piece : List Char) (rest : List (List Char)) :
    t.foldr consHead (piece :: rest) = (t ++ piece) :: rest := by
  induction t with
  | nil => rfl
  | cons c t ih => rw [List.foldr_cons, ih]; rfl

end Text

-- ============================================================================
-- Closed text
-- ============================================================================

namespace Source

/-- The content of a string literal: the quote does not stand in it unless escaped, and no
backslash takes the closing quote along. -/
inductive StringBody (quote : Char) : List Char → Prop where
  | nil : StringBody quote []
  | escape {c rest} : StringBody quote rest → StringBody quote ('\\' :: c :: rest)
  | char {c rest} : c ≠ '\\' → c ≠ quote → StringBody quote rest → StringBody quote (c :: rest)

theorem StringBody.of_char {quote c : Char} {rest : List Char} (hslash : c ≠ '\\')
    (h : StringBody quote (c :: rest)) : c ≠ quote ∧ StringBody quote rest := by
  cases h with
  | escape => exact absurd rfl hslash
  | char _ hne hrest => exact ⟨hne, hrest⟩

/-- Characters other than backslashes are no quotes, and what follows them is still content. -/
theorem StringBody.of_append {quote : Char} {cs rest : List Char} (hcs : ∀ c ∈ cs, c ≠ '\\')
    (h : StringBody quote (cs ++ rest)) : (∀ c ∈ cs, c ≠ quote) ∧ StringBody quote rest := by
  induction cs with
  | nil => exact ⟨fun _ hc => absurd hc List.not_mem_nil, h⟩
  | cons c cs ih =>
    rw [List.forall_mem_cons] at hcs
    obtain ⟨hne, htail⟩ := h.of_char hcs.1
    obtain ⟨hmem, hrest⟩ := ih hcs.2 htail
    exact ⟨List.forall_mem_cons.2 ⟨hne, hmem⟩, hrest⟩

theorem StringBody.of_escape {quote c : Char} {rest : List Char}
    (h : StringBody quote ('\\' :: c :: rest)) : StringBody quote rest := by
  cases h with
  | escape h => exact h
  | char hslash => exact absurd rfl hslash

/-- Text whose strings end and whose brackets come in pairs, and that has none of the separators
outside of these. -/
inductive Closed : List Char → List Char → Prop where
  | nil {separators} : Closed separators []
  | char {separators c rest} : c ∉ separators → isQuote c = false → isOpening c = false →
    isClosing c = false → Closed separators rest → Closed separators (c :: rest)
  | string {separators quote body rest} : isQuote quote = true → StringBody quote body →
    Closed separators rest → Closed separators (quote :: (body ++ quote :: rest))
  | brackets {separators opening closing inner rest} : isOpening opening = true →
    isClosing closing = true → Closed [] inner → Closed separators rest →
    Closed separators (opening :: (inner ++ closing :: rest))

theorem Closed.append {separators t u : List Char} (ht : Closed separators t)
    (hu : Closed separators u) : Closed separators (t ++ u) := by
  induction ht with
  | nil => exact hu
  | char hc hq ho hcl _ ih => exact .char hc hq ho hcl (ih hu)
  | string hq hbody _ ih =>
    rw [List.cons_append, List.append_assoc, List.cons_append]
    exact .string hq hbody (ih hu)
  | brackets ho hcl hinner _ _ ih =>
    rw [List.cons_append, List.append_assoc, List.cons_append]
    exact .brackets ho hcl hinner (ih hu)

/-- Fewer separators are easier to avoid. -/
theorem Closed.mono {separators fewer t : List Char} (ht : Closed separators t)
    (hsub : fewer ⊆ separators) : Closed fewer t := by
  induction ht with
  | nil => exact .nil
  | char hc hq ho hcl _ ih => exact .char (fun h => hc (hsub h)) hq ho hcl (ih hsub)
  | string hq hbody _ ih => exact .string hq hbody (ih hsub)
  | brackets ho hcl hinner _ _ ih => exact .brackets ho hcl hinner (ih hsub)

/-- Text without quotes, brackets and separators is closed. -/
theorem Closed.of_plain {separators t : List Char}
    (h : ∀ c ∈ t, c ∉ separators ∧ isQuote c = false ∧ isOpening c = false ∧ isClosing c = false) :
    Closed separators t := by
  induction t with
  | nil => exact .nil
  | cons c t ih =>
    obtain ⟨hc, hq, ho, hcl⟩ := h c List.mem_cons_self
    exact .char hc hq ho hcl (ih fun d hd => h d (List.mem_cons_of_mem c hd))

/-- A blank is neither a quote nor a bracket nor a separator of collections. -/
theorem not_mark_of_isBlank {c : Char} (h : Text.isBlank c = true) :
    c ∉ [',', ':'] ∧ isQuote c = false ∧ isOpening c = false ∧ isClosing c = false := by
  refine ⟨fun hc => ?_, ?_, ?_, ?_⟩
  · simp only [List.mem_cons, List.not_mem_nil, or_false] at hc
    rcases hc with rfl | rfl <;> cases h
  all_goals
    rw [← Bool.not_eq_true]
    intro hc
    simp only [isQuote, isOpening, isClosing, Bool.or_eq_true, decide_eq_true_eq] at hc
    rcases hc with (rfl | rfl) | rfl <;> cases h

theorem Closed.of_blank {t : List Char} (h : Text.Blank t) : Closed [',', ':'] t :=
  .of_plain fun c hc => not_mark_of_isBlank (h c hc)

-- ============================================================================
-- One character
-- ============================================================================

theorem eq_of_isQuote {c : Char} (hc : isQuote c = true) : c = '"' ∨ c = '\'' := by
  simpa [isQuote] using hc

theorem isBlank_of_isQuote {c : Char} (hc : isQuote c = true) : Text.isBlank c = false := by
  rcases eq_of_isQuote hc with rfl | rfl <;> rfl

/-- Neither a quote nor a bracket separates. -/
theorem not_separator {c : Char} (hc : isQuote c = true ∨ isOpening c = true ∨ isClosing c = true) :
    c ≠ ',' ∧ c ≠ ':' := by
  constructor <;> rintro rfl <;> rcases hc with hc | hc | hc <;> cases hc

theorem Quoting.after_quote {quote : Char} (hq : isQuote quote = true) :
    (Quoting.inside quote).after quote = .outside := by
  rcases eq_of_isQuote hq with rfl | rfl <;> rfl

theorem Quoting.after_char {quote c : Char} (hslash : c ≠ '\\') (hquote : c ≠ quote) :
    (Quoting.inside quote).after c = .inside quote := by
  simp [after, hslash, hquote]

theorem Quoting.after_slash (quote : Char) :
    (Quoting.inside quote).after '\\' = .escaped quote := rfl

theorem Quoting.after_escaped (quote c : Char) :
    (Quoting.escaped quote).after c = .inside quote := rfl

theorem Quoting.outside_after {c : Char} (hc : isQuote c = false) :
    Quoting.outside.after c = .outside := by
  simp [after, hc]

theorem Quoting.outside_after_quote {c : Char} (hc : isQuote c = true) :
    Quoting.outside.after c = .inside c := by
  simp [after, hc]

theorem isQuote_of_opening {c : Char} (hc : isOpening c = true) : isQuote c = false := by
  simp only [isOpening, Bool.or_eq_true, decide_eq_true_eq] at hc
  rcases hc with (rfl | rfl) | rfl <;> rfl

theorem isQuote_of_closing {c : Char} (hc : isClosing c = true) : isQuote c = false := by
  simp only [isClosing, Bool.or_eq_true, decide_eq_true_eq] at hc
  rcases hc with (rfl | rfl) | rfl <;> rfl

theorem depthAfter_quote {c : Char} (hc : isQuote c = true) (depth : Nat) :
    depthAfter depth c = depth := by
  rcases eq_of_isQuote hc with rfl | rfl <;> rfl

theorem depthAfter_opening {c : Char} (hc : isOpening c = true) (depth : Nat) :
    depthAfter depth c = depth + 1 := by
  simp [depthAfter, hc]

theorem depthAfter_closing {c : Char} (hc : isClosing c = true) (depth : Nat) :
    depthAfter (depth + 1) c = depth := by
  simp only [isClosing, Bool.or_eq_true, decide_eq_true_eq] at hc
  rcases hc with (rfl | rfl) | rfl <;> rfl

-- ============================================================================
-- Splitting at commas
-- ============================================================================

/-- The character before matters only to bars. -/
theorem pieces_comma_before (q : Quoting) (depth : Nat) (before : Option Char) (cs : List Char) :
    pieces ',' q depth before cs = pieces ',' q depth none cs := by
  cases cs with
  | nil => rfl
  | cons c cs =>
    cases q with
    | outside => by_cases hc : c = ',' <;> simp [pieces, isMarker, hc]
    | inside => rfl
    | escaped => rfl

/-- A character that does not separate stays in its piece. -/
theorem pieces_outside_cons {depth : Nat} {c : Char} (hc : c = ',' → depth ≠ 0)
    (before : Option Char) (rest : List Char) :
    pieces ',' .outside depth before (c :: rest) =
      Text.consHead c (pieces ',' (Quoting.outside.after c) (depthAfter depth c) none rest) := by
  rw [pieces, ← pieces_comma_before _ _ (some c)]
  by_cases hcomma : c = ','
  · subst hcomma
    have hdepth : depthAfter depth ',' ≠ 0 := hc rfl
    simp [hdepth]
  · simp [hcomma]

/-- Inside a string nothing separates. -/
theorem pieces_string {quote : Char} (hq : isQuote quote = true) {body : List Char}
    (hbody : StringBody quote body) (depth : Nat) (rest : List Char) :
    pieces ',' (.inside quote) depth none (body ++ quote :: rest) =
      (body ++ [quote]).foldr Text.consHead (pieces ',' .outside depth none rest) := by
  induction hbody with
  | nil =>
    simp only [List.nil_append, pieces, Quoting.after_quote hq, List.foldr_cons, List.foldr_nil]
    rw [pieces_comma_before]
  | escape _ ih =>
    simp only [List.cons_append, pieces, Quoting.after_slash, Quoting.after_escaped,
      List.foldr_cons]
    rw [pieces_comma_before, ih]
  | char hslash hquote _ ih =>
    simp only [List.cons_append, pieces, Quoting.after_char hslash hquote, List.foldr_cons]
    rw [pieces_comma_before, ih]

/-- A reader passes over closed text and stands then as before. At depth zero, the text must
have no comma outside of its brackets. -/
theorem pieces_closed {separators t : List Char} (ht : Closed separators t) {depth : Nat}
    (hcomma : depth = 0 → ',' ∈ separators) (rest : List Char) :
    pieces ',' .outside depth none (t ++ rest) =
      t.foldr Text.consHead (pieces ',' .outside depth none rest) := by
  induction ht generalizing depth rest with
  | nil => rfl
  | @char _ c _ hc hq ho hcl _ ih =>
    have hstays : c = ',' → depth ≠ 0 := fun h hzero => hc (h ▸ hcomma hzero)
    have hdepth : depthAfter depth c = depth := by simp [depthAfter, ho, hcl]
    rw [List.cons_append, pieces_outside_cons hstays, Quoting.outside_after hq, hdepth,
      ih hcomma]
    rfl
  | @string _ quote body _ hq hbody _ ih =>
    have hstays : quote = ',' → depth ≠ 0 := fun h => absurd h (not_separator (.inl hq)).1
    rw [List.cons_append, pieces_outside_cons hstays, Quoting.outside_after_quote hq,
      depthAfter_quote hq, List.append_assoc, List.cons_append, pieces_string hq hbody, ih hcomma]
    simp
  | @brackets _ opening closing inner _ ho hcl _ _ ihinner ih =>
    have hopening : opening = ',' → depth ≠ 0 :=
      fun h => absurd h (not_separator (.inr (.inl ho))).1
    have hclosing : closing = ',' → depth + 1 ≠ 0 :=
      fun h => absurd h (not_separator (.inr (.inr hcl))).1
    -- One level further in, commas do not separate.
    rw [List.cons_append, pieces_outside_cons hopening,
      Quoting.outside_after (isQuote_of_opening ho), depthAfter_opening ho, List.append_assoc,
      List.cons_append,
      ihinner fun h => absurd h (Nat.succ_ne_zero depth), pieces_outside_cons hclosing,
      Quoting.outside_after (isQuote_of_closing hcl), depthAfter_closing hcl, ih hcomma]
    simp

/-- Closed parts joined with commas are found again. -/
theorem pieces_joined {piece : List Char} {pieces : List (List Char)}
    (hpiece : Closed [','] piece) (hpieces : ∀ p ∈ pieces, Closed [','] p) :
    Source.pieces ',' .outside 0 none (piece ++ pieces.flatMap (',' :: ·)) = piece :: pieces := by
  induction pieces generalizing piece with
  | nil =>
    rw [List.flatMap_nil, pieces_closed hpiece fun _ => List.mem_singleton_self ',']
    simp [Source.pieces, Text.consHead_foldr]
  | cons p ps ih =>
    have htail := ih (hpieces p List.mem_cons_self) fun p' hp' =>
      hpieces p' (List.mem_cons_of_mem p hp')
    have hcomma : Source.pieces ',' .outside 0 none (',' :: (p ++ ps.flatMap (',' :: ·))) =
        [] :: p :: ps := by
      rw [← htail, ← pieces_comma_before _ _ (some ',') (p ++ _)]
      rfl
    rw [List.flatMap_cons, pieces_closed hpiece fun _ => List.mem_singleton_self ',',
      List.cons_append, hcomma, Text.consHead_foldr, List.append_nil]

/-- Closed parts with blanks around them, joined with commas, are the arguments. -/
theorem splitArgs_joined {piece : List Char} {pieces : List (List Char)}
    (hsolid : ¬ Text.Blank piece) (hpiece : Closed [','] piece)
    (hpieces : ∀ p ∈ pieces, Closed [','] p) :
    splitArgs (piece ++ pieces.flatMap (',' :: ·)) = (piece :: pieces).map Text.trimChars := by
  have hne : (Text.trimChars (piece ++ pieces.flatMap (',' :: ·))).isEmpty = false := by
    rw [List.isEmpty_eq_false_iff]
    intro hnil
    rw [Text.trimChars_eq_nil_iff] at hnil
    exact hsolid fun c hc => hnil c (List.mem_append_left _ hc)
  rw [splitArgs, hne, splitTopLevel, pieces_joined hpiece hpieces]
  rfl

/-- One closed part alone is the only argument. -/
theorem splitArgs_single {piece : List Char} (hsolid : Text.Solid piece)
    (hclosed : Closed [','] piece) : splitArgs piece = [piece] := by
  have hsplit := splitArgs_joined hsolid.not_blank hclosed (List.forall_mem_nil _)
  rwa [List.flatMap_nil, List.append_nil, List.map_singleton,
    Text.trimChars_of_solid hsolid] at hsplit

theorem splitArgs_blank {cs : List Char} (h : Text.Blank cs) : splitArgs cs = [] := by
  rw [splitArgs, Text.trimChars_eq_nil_iff.2 h]
  rfl

-- ============================================================================
-- Splitting at a colon
-- ============================================================================

/-- A character that is not the colon becomes part of the key. -/
theorem colonSides_outside_cons {depth : Nat} {c : Char} (hc : c = ':' → depth ≠ 0)
    (rest : List Char) :
    colonSides .outside depth (c :: rest) =
      (colonSides (Quoting.outside.after c) (depthAfter depth c) rest).map
        fun sides => (c :: sides.1, sides.2) := by
  have hnot : (c == ':' && depth == 0) = false := by
    rw [Bool.and_eq_false_imp, beq_iff_eq, beq_eq_false_iff_ne]
    exact hc
  rw [colonSides, hnot]
  rfl

/-- Inside a string no colon separates. -/
theorem colonSides_string {quote : Char} (hq : isQuote quote = true) {body : List Char}
    (hbody : StringBody quote body) (depth : Nat) (rest : List Char) :
    colonSides (.inside quote) depth (body ++ quote :: rest) =
      (colonSides .outside depth rest).map fun sides => (body ++ quote :: sides.1, sides.2) := by
  induction hbody with
  | nil => simp only [List.nil_append, colonSides, Quoting.after_quote hq]
  | escape _ ih =>
    simp only [List.cons_append, colonSides, Quoting.after_slash, Quoting.after_escaped, ih,
      Option.map_map, Function.comp_def]
  | char hslash hquote _ ih =>
    simp only [List.cons_append, colonSides, Quoting.after_char hslash hquote, ih,
      Option.map_map, Function.comp_def]

/-- Closed text becomes part of the key. -/
theorem colonSides_closed {separators t : List Char} (ht : Closed separators t) {depth : Nat}
    (hcolon : depth = 0 → ':' ∈ separators) (rest : List Char) :
    colonSides .outside depth (t ++ rest) =
      (colonSides .outside depth rest).map fun sides => (t ++ sides.1, sides.2) := by
  induction ht generalizing depth rest with
  | nil => simp
  | @char _ c _ hc hq ho hcl _ ih =>
    have hstays : c = ':' → depth ≠ 0 := fun h hzero => hc (h ▸ hcolon hzero)
    have hdepth : depthAfter depth c = depth := by simp [depthAfter, ho, hcl]
    rw [List.cons_append, colonSides_outside_cons hstays, Quoting.outside_after hq, hdepth,
      ih hcolon, Option.map_map]
    rfl
  | @string _ quote body _ hq hbody _ ih =>
    have hstays : quote = ':' → depth ≠ 0 := fun h => absurd h (not_separator (.inl hq)).2
    rw [List.cons_append, colonSides_outside_cons hstays, Quoting.outside_after_quote hq,
      depthAfter_quote hq, List.append_assoc, List.cons_append, colonSides_string hq hbody,
      ih hcolon, Option.map_map, Option.map_map]
    simp [Function.comp_def]
  | @brackets _ opening closing inner _ ho hcl _ _ ihinner ih =>
    have hopening : opening = ':' → depth ≠ 0 :=
      fun h => absurd h (not_separator (.inr (.inl ho))).2
    have hclosing : closing = ':' → depth + 1 ≠ 0 :=
      fun h => absurd h (not_separator (.inr (.inr hcl))).2
    rw [List.cons_append, colonSides_outside_cons hopening,
      Quoting.outside_after (isQuote_of_opening ho), depthAfter_opening ho, List.append_assoc,
      List.cons_append, ihinner fun h => absurd h (Nat.succ_ne_zero depth),
      colonSides_outside_cons hclosing, Quoting.outside_after (isQuote_of_closing hcl),
      depthAfter_closing hcl, ih hcolon, Option.map_map, Option.map_map, Option.map_map]
    simp [Function.comp_def]

/-- A closed key is what stands before the colon. -/
theorem splitKeyValue_entry {key : List Char} (hkey : Closed [':'] key) (value : List Char) :
    splitKeyValue (key ++ ':' :: value) = some (Text.trimChars key, Text.trimChars value) := by
  have hcolon : colonSides .outside 0 (':' :: value) = some ([], value) := rfl
  rw [splitKeyValue, colonSides_closed hkey fun _ => List.mem_singleton_self ':', hcolon]
  simp

end Source

end Sluice
