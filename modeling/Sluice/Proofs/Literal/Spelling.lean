/-
  Sluice.Proofs.Literal.Spelling

  Which texts spell which values.

  `Spelled n text v` says, without any reader, that a text spells a value with collections nested
  at most `n` deep: words, plain integers and strings for scalars, and brackets around parts that
  are joined with commas. Blanks may stand around every part.

  The lenient reader, which splits at commas and colons, finds this value (`Spelled.readLenient`),
  as long as the nesting is not cut off. The other readers and the writer are compared with it
  through the same relation.
-/

import Sluice.Proofs.Number.Exact
import Sluice.Proofs.Source.Pieces

namespace Sluice.Literal

open Source (StringBody Closed isQuote splitArgs splitKeyValue)
open Text (Blank Solid Padded trimChars)

-- ============================================================================
-- The reader, apart from its strict part
-- ============================================================================

/-- A field of an object, read leniently at a depth. -/
def readEntry (json : Json.Reader) (depth : Nat) (entry : List Char) : String × Value :=
  match splitKeyValue entry with
  | some (key, value) => (keyText (readAt json 0 key), readAt json (depth + 1) value)
  | none => (keyText (readAt json 0 entry), .null)

/-- A bracketed text, read leniently: its parts are literals of their own. -/
def readLenient (json : Json.Reader) (depth : Nat) (text : List Char) : Value :=
  if isWrapped '[' ']' text then .array ((splitArgs (inner text)).map (readAt json (depth + 1)))
  else .object (Record.ofEntries ((splitArgs (inner text)).map (readEntry json depth)))

/-- Whether a text stands between square brackets or between braces. -/
def isBracketed (text : List Char) : Bool :=
  isWrapped '[' ']' text || isWrapped '\x7b' '\x7d' text

theorem map_attach_eq {α β : Type} {l : List α} {f : {a // a ∈ l} → β} {g : α → β}
    (h : ∀ a, f a = g a.1) : l.attach.map f = l.map g :=
  calc l.attach.map f = l.attach.map fun a => g a.1 := List.map_congr_left fun a _ => h a
    _ = l.map g := List.attach_map_val

/-- A literal is a scalar, or it is bracketed, and then read strictly or else leniently, or it is
text. -/
theorem readAt_eq (json : Json.Reader) (depth : Nat) (source : List Char) :
    readAt json depth source =
      match scalar? (trimChars source) with
      | some v => v
      | none =>
        if isBracketed (trimChars source) && decide (depth < maxDepth) then
          (readAt.strict? json depth (trimChars source)).getD
            (readLenient json depth (trimChars source))
        else .text (String.ofList (trimChars source)) := by
  rw [readAt]
  cases scalar? (trimChars source) with
  | some v => rfl
  | none =>
    simp only [isBracketed, readLenient]
    by_cases hdeep : maxDepth ≤ depth
    · simp [hdeep, Nat.not_lt.2 hdeep]
    · have hlt : depth < maxDepth := Nat.lt_of_not_le hdeep
      simp only [hdeep, hlt, if_false, decide_true, Bool.and_true]
      by_cases ha : isWrapped '[' ']' (trimChars source) = true
      · simp only [ha, if_true, Bool.true_or]
        cases readAt.strict? json depth (trimChars source) with
        | some v => rfl
        | none => exact congrArg Value.array (map_attach_eq fun _ => rfl)
      · by_cases ho : isWrapped '\x7b' '\x7d' (trimChars source) = true
        · simp only [ha, ho, if_true, Bool.or_true]
          cases readAt.strict? json depth (trimChars source) with
          | some v => rfl
          | none =>
            refine congrArg (fun es => Value.object (Record.ofEntries es)) (map_attach_eq ?_)
            intro entry
            unfold readEntry
            split <;> rename_i h <;> rw [h]
        · simp [ha, ho]

-- ============================================================================
-- Scalars
-- ============================================================================

/-- Whether the escapes of a string's content are only `\"`, `\\`, `\'`, `\n`, `\r`, `\t` and
`\u` with four hexadecimal digits that are no surrogate. -/
def plainEscapes : List Char → Bool
  | [] => true
  | '\\' :: 'u' :: a :: b :: c :: d :: rest =>
    match Text.digitsValue? Text.hexValue? 16 [a, b, c, d] with
    | some n => !Json.isSurrogate n && plainEscapes rest
    | none => false
  | '\\' :: e :: rest => (shortEscape? e).isSome && plainEscapes rest
  | _ :: rest => plainEscapes rest

/-- A text that spells a value other than a collection. -/
inductive SpellsScalar : List Char → Value → Prop where
  | null : SpellsScalar "null".toList .null
  | bool (b : Bool) : SpellsScalar (if b then "true".toList else "false".toList) (.bool b)
  | number {word x} : Number.isPlainInteger word = true → number? word = some x →
    SpellsScalar word (.number x)
  | string {quote body} : isQuote quote = true → StringBody quote body →
    plainEscapes body = true →
    SpellsScalar (quote :: (body ++ [quote])) (.text (String.ofList (unescape body)))

/-- A character of a word is neither a blank nor a quote nor a bracket nor a separator. -/
theorem not_mark_of_isWordChar {c : Char} (hc : Json.isWordChar c = true) :
    Text.isBlank c = false ∧ c ∉ [',', ':'] ∧ isQuote c = false ∧ Source.isOpening c = false ∧
      Source.isClosing c = false := by
  refine ⟨?_, fun hmark => ?_, ?_, ?_, ?_⟩
  · simp only [Json.isWordChar, Text.isAsciiLetter, Text.isDigit, Bool.or_eq_true,
      Bool.and_eq_true, decide_eq_true_eq] at hc
    rcases hc with ((hletter | rfl) | rfl) | rfl
    · simp only [Text.isBlank, Bool.or_eq_false_iff, Bool.and_eq_false_iff, beq_eq_false_iff_ne,
        decide_eq_false_iff_not]
      omega
    all_goals rfl
  · simp only [List.mem_cons, List.not_mem_nil, or_false] at hmark
    rcases hmark with rfl | rfl <;> cases hc
  all_goals
    rw [← Bool.not_eq_true]
    intro hmark
    simp only [isQuote, Source.isOpening, Source.isClosing, Bool.or_eq_true,
      decide_eq_true_eq] at hmark
    rcases hmark with (rfl | rfl) | rfl <;> cases hc

/-- A plain integer consists of characters of words. -/
theorem isWordChar_of_isPlainInteger {word : List Char} (h : Number.isPlainInteger word = true) :
    word ≠ [] ∧ ∀ c ∈ word, Json.isWordChar c = true := by
  obtain ⟨negative, digits, rfl, hdigits⟩ := Number.exists_of_isPlainInteger h
  have hword : ∀ c ∈ digits, Json.isWordChar c = true := by
    intro c hc
    simp [Json.isWordChar, hdigits.digits c hc]
  cases negative with
  | true =>
    refine ⟨List.cons_ne_nil _ _, fun c hc => ?_⟩
    rcases List.mem_cons.1 hc with rfl | hc
    · rfl
    · exact hword c hc
  | false => exact ⟨hdigits.nonempty, hword⟩

/-- A scalar that is no string is a word. -/
theorem SpellsScalar.cases_word {text : List Char} {v : Value} (h : SpellsScalar text v) :
    (text ≠ [] ∧ ∀ c ∈ text, Json.isWordChar c = true) ∨
    ∃ quote body, isQuote quote = true ∧ StringBody quote body ∧
      text = quote :: (body ++ [quote]) := by
  cases h with
  | null => exact .inl ⟨by decide, List.all_eq_true.1 rfl⟩
  | bool b => cases b <;> exact .inl ⟨by decide, List.all_eq_true.1 rfl⟩
  | number hword _ => exact .inl (isWordChar_of_isPlainInteger hword)
  | string hquote hbody _ => exact .inr ⟨_, _, hquote, hbody, rfl⟩

theorem SpellsScalar.solid {text : List Char} {v : Value} (h : SpellsScalar text v) :
    Solid text := by
  rcases h.cases_word with ⟨hne, hword⟩ | ⟨quote, body, hquote, -, rfl⟩
  · exact Text.solid_of_not_blank (fun c hc => (not_mark_of_isWordChar (hword c hc)).1) hne
  · have hblank := Source.isBlank_of_isQuote hquote
    exact Text.solid_brackets hblank hblank body

theorem SpellsScalar.closed {text : List Char} {v : Value} (h : SpellsScalar text v) :
    Closed [',', ':'] text := by
  rcases h.cases_word with ⟨-, hword⟩ | ⟨quote, body, hquote, hbody, rfl⟩
  · exact .of_plain fun c hc => (not_mark_of_isWordChar (hword c hc)).2
  · exact .string hquote hbody .nil

theorem breaksQuote_eq_false {quote : Char} {body : List Char} (h : StringBody quote body) :
    breaksQuote quote body = false := by
  induction h with
  | nil => rfl
  | escape _ ih => rw [breaksQuote, ih]
  | char hslash hquote _ ih => simp [breaksQuote, hslash, hquote, ih]

theorem quotedContent?_string {quote : Char} {body : List Char} (hquote : isQuote quote = true)
    (hbody : StringBody quote body) : quotedContent? (quote :: (body ++ [quote])) = some body := by
  simp [quotedContent?, hquote, breaksQuote_eq_false hbody]

theorem number?_eq_none {c : Char} (hdigit : Text.isDigit c = false) (hsign : c ∉ ['-', '+', '.'])
    (rest : List Char) : number? (c :: rest) = none := by
  simp only [List.mem_cons, List.not_mem_nil, or_false, not_or] at hsign
  simp [number?, hdigit, hsign]

/-- A string starts no word and no number. -/
theorem scalar?_string {quote : Char} {body : List Char} (hquote : isQuote quote = true)
    (hbody : StringBody quote body) :
    scalar? (quote :: (body ++ [quote])) = some (.text (String.ofList (unescape body))) := by
  have hnumber : number? (quote :: (body ++ [quote])) = none := by
    rcases Source.eq_of_isQuote hquote with rfl | rfl <;> exact number?_eq_none rfl (by decide) _
  have hwords : ∀ word ∈ ["null".toList, "true".toList, "false".toList],
      quote :: (body ++ [quote]) ≠ word := by
    intro word hword heq
    rw [← heq] at hword
    rcases Source.eq_of_isQuote hquote with rfl | rfl <;> simp at hword
  simp only [List.forall_mem_cons] at hwords
  simp only [scalar?, List.isEmpty_cons, Bool.false_or, beq_iff_eq, hwords.1, hwords.2.1,
    hwords.2.2.1, hnumber, quotedContent?_string hquote hbody, if_false, Option.map_some]

/-- A scalar is read as what it spells. -/
theorem SpellsScalar.scalar?_eq {text : List Char} {v : Value} (h : SpellsScalar text v) :
    scalar? text = some v := by
  cases h with
  | null => rfl
  | bool b => cases b <;> rfl
  | @number _ x hword hx =>
    have hwords : text ≠ [] ∧ text ≠ "null".toList ∧ text ≠ "true".toList ∧
        text ≠ "false".toList := by
      refine ⟨?_, ?_, ?_, ?_⟩ <;> rintro rfl <;> cases hx
    simp only [scalar?, List.isEmpty_eq_false_iff.2 hwords.1, Bool.false_or, beq_iff_eq,
      hwords.2.1, hwords.2.2.1, hwords.2.2.2, hx, if_false]
  | string hquote hbody _ => exact scalar?_string hquote hbody

-- ============================================================================
-- Collections
-- ============================================================================

/-- A part of a collection: its value, the text that spells it, and this text with the blanks
around it. -/
structure Part where
  piece : List Char
  text : List Char
  value : Value
  padded : Padded text piece

/-- A field of an object: its key, which a string spells, and its value. -/
structure Field where
  keyPiece : List Char
  keyText : List Char
  key : String
  keyPadded : Padded keyText keyPiece
  keySpelled : SpellsScalar keyText (.text key)
  part : Part

/-- The text of a field. -/
def Field.piece (f : Field) : List Char :=
  f.keyPiece ++ ':' :: f.part.piece

/-- A field as an entry. -/
def Field.entry (f : Field) : String × Value :=
  (f.key, f.part.value)

/-- The content of a collection with these pieces: nothing but blanks, or the pieces joined with
commas. -/
def Divided (content : List Char) : List (List Char) → Prop
  | [] => Blank content
  | piece :: pieces => content = piece ++ pieces.flatMap (',' :: ·)

/-- A text spells a value with collections nested at most `n` deep. -/
inductive Spelled : Nat → List Char → Value → Prop where
  | scalar {n text v} : SpellsScalar text v → Spelled n text v
  | array {n content} (parts : List Part) : Divided content (parts.map Part.piece) →
    (∀ p ∈ parts, Spelled n p.text p.value) →
    Spelled (n + 1) ('[' :: (content ++ [']'])) (.array (parts.map Part.value))
  | object {n content} (fields : List Field) : Divided content (fields.map Field.piece) →
    (∀ f ∈ fields, Spelled n f.part.text f.part.value) →
    Spelled (n + 1) ('\x7b' :: (content ++ ['\x7d']))
      (.object (Record.ofEntries (fields.map Field.entry)))

theorem closed_of_padded {separators text piece : List Char} (hsub : separators ⊆ [',', ':'])
    (htext : Closed separators text) (hpiece : Padded text piece) : Closed separators piece := by
  obtain ⟨before, after, hbefore, hafter, rfl⟩ := hpiece
  exact (((Closed.of_blank hbefore).mono hsub).append htext).append
    ((Closed.of_blank hafter).mono hsub)

theorem closed_comma (rest : List Char) (h : Closed [] rest) : Closed [] (',' :: rest) :=
  .char List.not_mem_nil rfl rfl rfl h

/-- What is put together from closed pieces is closed. -/
theorem Divided.closed {content : List Char} {pieces : List (List Char)}
    (hcontent : Divided content pieces) (hpieces : ∀ p ∈ pieces, Closed [] p) :
    Closed [] content := by
  have hjoined : ∀ ps : List (List Char), (∀ p ∈ ps, Closed [] p) →
      Closed [] (ps.flatMap (',' :: ·)) := by
    intro ps hps
    induction ps with
    | nil => exact .nil
    | cons p ps ih =>
      rw [List.forall_mem_cons] at hps
      exact closed_comma _ (hps.1.append (ih hps.2))
  cases pieces with
  | nil => exact (Closed.of_blank hcontent).mono (List.nil_subset _)
  | cons p ps =>
    rw [List.forall_mem_cons] at hpieces
    rw [hcontent]
    exact hpieces.1.append (hjoined ps hpieces.2)

/-- The key of a field is closed, and so is the field once its value is. -/
theorem Field.closed {f : Field} (h : Closed [',', ':'] f.part.text) :
    Closed [':'] f.keyPiece ∧ Closed [','] f.piece := by
  have hkey := closed_of_padded (List.Subset.refl _) f.keySpelled.closed f.keyPadded
  have hvalue := closed_of_padded (List.Subset.refl _) h f.part.padded
  refine ⟨hkey.mono (by simp), (hkey.mono (by simp)).append ?_⟩
  exact .char (by decide) rfl rfl rfl (hvalue.mono (by simp))

/-- A text that spells a value has its commas and colons inside of strings and brackets. -/
theorem Spelled.closed {n : Nat} {text : List Char} {v : Value} (h : Spelled n text v) :
    Closed [',', ':'] text := by
  induction h with
  | scalar h => exact h.closed
  | array parts hcontent _ ih =>
    refine .brackets rfl rfl (hcontent.closed fun piece hpiece => ?_) .nil
    obtain ⟨p, hp, rfl⟩ := List.mem_map.1 hpiece
    exact closed_of_padded (List.nil_subset _) ((ih p hp).mono (List.nil_subset _)) p.padded
  | object fields hcontent _ ih =>
    refine .brackets rfl rfl (hcontent.closed fun piece hpiece => ?_) .nil
    obtain ⟨f, hf, rfl⟩ := List.mem_map.1 hpiece
    exact (Field.closed (ih f hf)).2.mono (List.nil_subset _)

theorem Spelled.solid {n : Nat} {text : List Char} {v : Value} (h : Spelled n text v) :
    Solid text := by
  cases h with
  | scalar h => exact h.solid
  | array => exact Text.solid_brackets rfl rfl _
  | object => exact Text.solid_brackets rfl rfl _

-- ============================================================================
-- Reading leniently
-- ============================================================================

/-- The pieces of a collection are its arguments. -/
theorem Divided.splitArgs_eq {content : List Char} {pieces : List (List Char)}
    (hcontent : Divided content pieces) (hclosed : ∀ p ∈ pieces, Closed [','] p)
    (hblank : ∀ p ∈ pieces, ¬ Blank p) : splitArgs content = pieces.map trimChars := by
  cases pieces with
  | nil => exact Source.splitArgs_blank hcontent
  | cons p ps =>
    rw [List.forall_mem_cons] at hclosed
    rw [hcontent]
    exact Source.splitArgs_joined (hblank p List.mem_cons_self) hclosed.1 hclosed.2

theorem isWrapped_brackets (opening closing : Char) (content : List Char) :
    isWrapped opening closing (opening :: (content ++ [closing])) = true := by
  have hlast : (opening :: (content ++ [closing])).getLast? = some closing := by
    rw [← List.cons_append, List.getLast?_concat]
  simp [isWrapped, hlast]

theorem isBracketed_brackets {opening closing : Char}
    (hbrackets : opening = '[' ∧ closing = ']' ∨ opening = '\x7b' ∧ closing = '\x7d')
    (content : List Char) : isBracketed (opening :: (content ++ [closing])) = true := by
  rw [isBracketed, Bool.or_eq_true]
  rcases hbrackets with ⟨rfl, rfl⟩ | ⟨rfl, rfl⟩
  · exact .inl (isWrapped_brackets _ _ content)
  · exact .inr (isWrapped_brackets _ _ content)

theorem inner_brackets (opening closing : Char) (content : List Char) :
    inner (opening :: (content ++ [closing])) = content := by
  simp [inner]

/-- Neither bracket starts a scalar. -/
theorem scalar?_brackets {opening : Char} (hopening : opening = '[' ∨ opening = '\x7b')
    (rest : List Char) : scalar? (opening :: rest) = none := by
  have hnumber : number? (opening :: rest) = none := by
    rcases hopening with rfl | rfl <;> exact number?_eq_none rfl (by decide) rest
  have hquoted : quotedContent? (opening :: rest) = none := by
    rcases hopening with rfl | rfl <;> rfl
  have hwords : ∀ word ∈ ["null".toList, "true".toList, "false".toList],
      opening :: rest ≠ word := by
    intro word hword heq
    rw [← heq] at hword
    rcases hopening with rfl | rfl <;> simp at hword
  simp only [List.forall_mem_cons] at hwords
  simp only [scalar?, List.isEmpty_cons, Bool.false_or, beq_iff_eq, hwords.1, hwords.2.1,
    hwords.2.2.1, hnumber, hquoted, if_false, Option.map_none]

variable {json : Json.Reader}

/-- A scalar is read at any depth, with blanks around it or without. -/
theorem SpellsScalar.readAt_eq {text piece : List Char} {v : Value} (h : SpellsScalar text v)
    (hpiece : Padded text piece) (depth : Nat) : readAt json depth piece = v := by
  rw [Literal.readAt_eq, Text.trimChars_of_padded h.solid hpiece, h.scalar?_eq]

/-- An array whose parts are read one level down is read from its parts. -/
theorem readLenient_array {n depth : Nat} {content : List Char} {parts : List Part}
    (hcontent : Divided content (parts.map Part.piece))
    (hparts : ∀ p ∈ parts, Spelled n p.text p.value)
    (hread : ∀ p ∈ parts, readAt json (depth + 1) p.text = p.value) :
    readLenient json depth ('[' :: (content ++ [']'])) = .array (parts.map Part.value) := by
  have hsplit : splitArgs content = (parts.map Part.piece).map trimChars := by
    refine hcontent.splitArgs_eq (fun piece hpiece => ?_) fun piece hpiece => ?_
    all_goals obtain ⟨p, hp, rfl⟩ := List.mem_map.1 hpiece
    · exact closed_of_padded (by simp) ((hparts p hp).closed.mono (by simp)) p.padded
    · exact p.padded.not_blank (hparts p hp).solid
  rw [readLenient, if_pos (isWrapped_brackets _ _ _), inner_brackets, hsplit, List.map_map,
    List.map_map]
  refine congrArg Value.array (List.map_congr_left fun p hp => ?_)
  calc readAt json (depth + 1) (trimChars p.piece) = readAt json (depth + 1) p.text := by
        rw [Text.trimChars_of_padded (hparts p hp).solid p.padded]
    _ = p.value := hread p hp

/-- A field without the blanks at its ends splits into its key and its value. -/
theorem Field.splitKeyValue_eq {f : Field} (hsolid : Solid f.part.text) :
    splitKeyValue (trimChars f.piece) = some (f.keyText, f.part.text) ∧ ¬ Blank f.piece := by
  obtain ⟨a, b, ha, hb, hkey⟩ := f.keyPadded
  obtain ⟨c, d, hc, hd, hvalue⟩ := f.part.padded
  have hkeySolid := f.keySpelled.solid
  -- The blanks next to the colon stay.
  have hpadded : Padded (f.keyText ++ b ++ ':' :: (c ++ f.part.text)) f.piece :=
    ⟨a, d, ha, hd, by simp [Field.piece, hkey, hvalue]⟩
  have hends : Solid (f.keyText ++ b ++ ':' :: (c ++ f.part.text)) := by
    obtain ⟨⟨first, hfirst, hfirstSolid⟩, -⟩ := hkeySolid
    obtain ⟨-, last, hlast, hlastSolid⟩ := hsolid
    refine ⟨⟨first, ?_, hfirstSolid⟩, last, ?_, hlastSolid⟩
    · rw [List.append_assoc, List.head?_append, hfirst]
      rfl
    · rw [← List.cons_append, ← List.append_assoc, List.getLast?_append, hlast]
      rfl
  have hkeyBlank : Padded f.keyText (f.keyText ++ b) :=
    ⟨[], b, fun _ h => absurd h List.not_mem_nil, hb, by simp⟩
  have hvalueBlank : Padded f.part.text (c ++ f.part.text) :=
    ⟨c, [], hc, fun _ h => absurd h List.not_mem_nil, by simp⟩
  have hkeyClosed : Closed [':'] (f.keyText ++ b) :=
    closed_of_padded (by simp) (f.keySpelled.closed.mono (by simp)) hkeyBlank
  refine ⟨?_, hpadded.not_blank hends⟩
  rw [Text.trimChars_of_padded hends hpadded, Source.splitKeyValue_entry hkeyClosed,
    Text.trimChars_of_padded hkeySolid hkeyBlank, Text.trimChars_of_padded hsolid hvalueBlank]

/-- An object whose values are read one level down is read from its fields. -/
theorem readLenient_object {n depth : Nat} {content : List Char} {fields : List Field}
    (hcontent : Divided content (fields.map Field.piece))
    (hfields : ∀ f ∈ fields, Spelled n f.part.text f.part.value)
    (hread : ∀ f ∈ fields, readAt json (depth + 1) f.part.text = f.part.value) :
    readLenient json depth ('\x7b' :: (content ++ ['\x7d'])) =
      .object (Record.ofEntries (fields.map Field.entry)) := by
  have hsplit : splitArgs content = (fields.map Field.piece).map trimChars := by
    refine hcontent.splitArgs_eq (fun piece hpiece => ?_) fun piece hpiece => ?_
    all_goals obtain ⟨f, hf, rfl⟩ := List.mem_map.1 hpiece
    · exact (Field.closed (hfields f hf).closed).2
    · exact (Field.splitKeyValue_eq (hfields f hf).solid).2
  have hsquare : ¬ isWrapped '[' ']' ('\x7b' :: (content ++ ['\x7d'])) = true := by
    simp [isWrapped]
  rw [readLenient, if_neg hsquare, inner_brackets, hsplit, List.map_map, List.map_map]
  refine congrArg (fun entries => Value.object (Record.ofEntries entries))
    (List.map_congr_left fun f hf => ?_)
  have hentry := (Field.splitKeyValue_eq (hfields f hf).solid).1
  have hkey : readAt json 0 f.keyText = .text f.key :=
    f.keySpelled.readAt_eq (Padded.self f.keyText) 0
  simp only [Function.comp_apply, readEntry, hentry, hkey, hread f hf]
  rfl

/-- Brackets below a collection are read leniently. -/
theorem readAt_brackets {opening closing : Char}
    (hbrackets : opening = '[' ∧ closing = ']' ∨ opening = '\x7b' ∧ closing = '\x7d')
    {depth : Nat} (hbelow : 0 < depth) (hdepth : depth < maxDepth) (content : List Char) :
    readAt json depth (opening :: (content ++ [closing])) =
      readLenient json depth (opening :: (content ++ [closing])) := by
  have htrim :
      trimChars (opening :: (content ++ [closing])) = opening :: (content ++ [closing]) := by
    rcases hbrackets with ⟨rfl, rfl⟩ | ⟨rfl, rfl⟩ <;>
      exact Text.trimChars_of_solid (Text.solid_brackets rfl rfl content)
  have hscalar : scalar? (opening :: (content ++ [closing])) = none :=
    scalar?_brackets (hbrackets.imp And.left And.left) _
  have hbracketed := isBracketed_brackets hbrackets content
  have hstrict : readAt.strict? json depth (opening :: (content ++ [closing])) = none := by
    rw [readAt.strict?, if_neg (Nat.ne_of_gt hbelow)]
  rw [readAt_eq, htrim, hscalar]
  simp only [hbracketed, hdepth, hstrict, decide_true, Bool.and_self, if_true, Option.getD_none]

/-- Below a collection a text is read as what it spells, unless its nesting is cut off. -/
theorem Spelled.readAt_eq {n : Nat} {text : List Char} {v : Value} (h : Spelled n text v)
    {depth : Nat} (hbelow : 0 < depth) (hdepth : depth + n ≤ maxDepth) :
    readAt json depth text = v := by
  induction h generalizing depth with
  | scalar h => exact h.readAt_eq (Padded.self _) depth
  | array parts hcontent hparts ih =>
    rw [readAt_brackets (.inl ⟨rfl, rfl⟩) hbelow (by omega)]
    exact readLenient_array hcontent hparts fun p hp => ih p hp (by omega) (by omega)
  | object fields hcontent hfields ih =>
    rw [readAt_brackets (.inr ⟨rfl, rfl⟩) hbelow (by omega)]
    exact readLenient_object hcontent hfields fun f hf => ih f hf (by omega) (by omega)

/-- The lenient reading of a text that spells a collection is this collection. -/
theorem Spelled.readLenient_eq {n : Nat} {text : List Char} {v : Value} (h : Spelled n text v)
    (hscalar : scalar? text = none) {depth : Nat} (hdepth : depth + n ≤ maxDepth) :
    readLenient json depth text = v := by
  cases h with
  | scalar h =>
    rw [h.scalar?_eq] at hscalar
    cases hscalar
  | array parts hcontent hparts =>
    exact readLenient_array hcontent hparts fun p hp =>
      (hparts p hp).readAt_eq (by omega) (by omega)
  | object fields hcontent hfields =>
    exact readLenient_object hcontent hfields fun f hf =>
      (hfields f hf).readAt_eq (by omega) (by omega)

end Sluice.Literal
