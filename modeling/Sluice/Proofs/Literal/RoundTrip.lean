/-
  Sluice.Proofs.Literal.RoundTrip

  A literal that was written reads back.

  What is written spells the value (`spelled_write`), and what spells a value is read as this value
  by whichever reader takes it: a scalar directly, a collection strictly or else leniently, the
  latter at the deepest nesting, which the strict reader refuses (`Spelled.read_eq`). Numbers are
  taken to be whole and below 10^15, as these are written as integers; a negative zero comes back
  as zero, which equals it.
-/

import Mathlib.Data.List.Basic
import Sluice.Proofs.Literal.Strict

namespace Sluice

-- ============================================================================
-- Records
-- ============================================================================

namespace Record

variable {α β : Type}

/-- An entry with the largest key goes to the end. -/
theorem set_append {record : Record α} {key : String} (h : ∀ e ∈ record, e.1 < key) (value : α) :
    record.set key value = record ++ [(key, value)] := by
  induction record with
  | nil => rfl
  | cons e record ih =>
    obtain ⟨k, a⟩ := e
    rw [List.forall_mem_cons] at h
    have hlt : ¬ key < k := String.lt_asymm h.1
    have hne : k ≠ key := by
      rintro rfl
      exact String.lt_irrefl _ h.1
    rw [set, if_neg hlt, if_neg hne, ih h.2]
    rfl

/-- Entries in order are their own record. -/
theorem ofEntries_of_ordered {record : Record α} (h : record.Ordered) :
    ofEntries record = record := by
  have hfold : ∀ (done rest : Record α), Ordered (done ++ rest) →
      rest.foldl (fun record e => record.set e.1 e.2) done = done ++ rest := by
    intro done rest hordered
    induction rest generalizing done with
    | nil => simp
    | cons e rest ih =>
      obtain ⟨k, a⟩ := e
      have hlast : ∀ e ∈ done, e.1 < k :=
        fun e he => (List.pairwise_append.1 hordered).2.2 e he (k, a) List.mem_cons_self
      rw [List.append_cons] at hordered ⊢
      rw [List.foldl_cons]
      simp only [set_append hlast]
      exact ih _ hordered
  exact hfold [] record h

end Record

-- ============================================================================
-- Whole numbers
-- ============================================================================

namespace Value

mutual

/-- Every number inside the value is whole and of a magnitude below 10^15. -/
def WholeNumbers : Value → Prop
  | number x => Number.showsAsInteger x = true
  | array items => ItemsWhole items
  | object fields => FieldsWhole fields
  | _ => True

/-- Every number inside the elements is whole. -/
def ItemsWhole : List Value → Prop
  | [] => True
  | v :: rest => WholeNumbers v ∧ ItemsWhole rest

/-- Every number inside the fields is whole. -/
def FieldsWhole : List (String × Value) → Prop
  | [] => True
  | (_, v) :: rest => WholeNumbers v ∧ FieldsWhole rest

end

theorem jsonImage_number {x : Number} (hx : Number.isFinite x = true) :
    (number x).jsonImage = number (if Number.isZero x then Number.zero false else x) := by
  simp only [jsonImage, jsonNumberImage, hx]
  by_cases hzero : Number.isZero x = true <;> simp [hzero]

theorem keys_jsonImageFields (fields : List (String × Value)) :
    (jsonImageFields fields).map (·.1) = fields.map (·.1) := by
  induction fields with
  | nil => rfl
  | cons field fields ih => exact congrArg (field.1 :: ·) ih

theorem ordered_jsonImageFields {fields : List (String × Value)} (h : Record.Ordered fields) :
    Record.Ordered (jsonImageFields fields) := by
  have hkeys := List.pairwise_map.2 h
  rw [← keys_jsonImageFields] at hkeys
  exact List.pairwise_map.1 hkeys

end Value

namespace Literal

open Source (StringBody isQuote)
open Text (Blank Solid Padded)
open Json (isWordChar)

-- ============================================================================
-- Texts
-- ============================================================================

/-- The ways in which a character is written: behind a backslash, as its code, or as it is. -/
inductive Written (c : Char) : List Char → Prop where
  | short {e} : shortEscape? e = some c → Written c ['\\', e]
  | code {a b x d} : Json.unit? a b x d = some c.toNat →
    Json.isSurrogate c.toNat = false → Written c ['\\', 'u', a, b, x, d]
  | plain : c ≠ '\\' → c ≠ '"' → Written c [c]

/-- The code of a control character has four digits. -/
theorem exists_code {n : Nat} (hn : n < 0xa0) : ∃ a b x d,
    Text.padZeros 4 (Text.hexDigits n) = [a, b, x, d] ∧ Json.unit? a b x d = some n := by
  have hall : ∀ n < 0xa0, (Text.padZeros 4 (Text.hexDigits n)).length = 4 ∧
      Text.digitsValue? Text.hexValue? 16 (Text.padZeros 4 (Text.hexDigits n)) = some n := by
    decide +kernel
  obtain ⟨hlength, hvalue⟩ := hall n hn
  obtain ⟨a, b, x, d, hdigits⟩ := List.length_eq_four.1 hlength
  rw [hdigits] at hvalue
  exact ⟨a, b, x, d, hdigits, hvalue⟩

theorem written_writtenChar (c : Char) : Written c (writtenChar c) := by
  unfold writtenChar
  split
  · exact .short rfl
  · exact .short rfl
  · exact .short rfl
  · exact .short rfl
  · exact .short rfl
  · rename_i hquote hslash _ _ _
    split
    · rename_i hcontrol
      have hsmall : c.toNat < 0xa0 := by
        simp only [Text.isControl, Bool.or_eq_true, Bool.and_eq_true, decide_eq_true_eq] at hcontrol
        omega
      obtain ⟨a, b, x, d, hdigits, hvalue⟩ := exists_code hsmall
      rw [hdigits]
      refine .code hvalue ?_
      simp only [Json.isSurrogate, Bool.and_eq_false_iff, decide_eq_false_iff_not]
      omega
    · exact .plain hslash hquote

/-- A written character in front of the content of a string. -/
theorem Written.prepend {c : Char} {image : List Char} (h : Written c image) {body : List Char}
    (hbody : StringBody '"' body) (hplain : plainEscapes body = true) :
    StringBody '"' (image ++ body) ∧ plainEscapes (image ++ body) = true ∧
      unescape (image ++ body) = c :: unescape body := by
  cases h with
  | @short e he =>
    have hcode : e ≠ 'u' := by
      rintro rfl
      cases he
    refine ⟨.escape hbody, ?_, unescape_short he body⟩
    rw [List.cons_append, List.singleton_append, plainEscapes, he, hplain]
    · rfl
    · exact fun _ _ _ _ _ hu _ => hcode hu
  | @code a b x d hvalue hsurrogate =>
    refine ⟨Json.stringBody_unit hvalue hbody, ?_, ?_⟩
    · rw [Json.unit?] at hvalue
      simp [plainEscapes, hvalue, hsurrogate, hplain]
    · simpa [Char.ofNat_toNat] using unescape_code hvalue hsurrogate body
  | plain hslash hquote =>
    refine ⟨.char hslash hquote hbody, ?_, unescape_char hslash body⟩
    rw [List.singleton_append, plainEscapes, hplain]
    · exact fun _ _ _ _ _ hc _ => hslash hc
    · exact fun _ _ hc _ => hslash hc

/-- A text between its quotes. -/
theorem spellsScalar_writeText (s : String) : SpellsScalar (writeText s).toList (.text s) := by
  have hbody : ∀ cs : List Char, StringBody '"' (cs.flatMap writtenChar) ∧
      plainEscapes (cs.flatMap writtenChar) = true ∧ unescape (cs.flatMap writtenChar) = cs := by
    intro cs
    induction cs with
    | nil => exact ⟨.nil, rfl, by rw [List.flatMap_nil, unescape]⟩
    | cons c cs ih =>
      obtain ⟨hbody, hplain, hcontent⟩ := ih
      have hstep := (written_writtenChar c).prepend hbody hplain
      rwa [hcontent] at hstep
  obtain ⟨hstring, hplain, hcontent⟩ := hbody s.toList
  have hspelled := SpellsScalar.string (show isQuote '"' = true from rfl) hstring hplain
  rw [hcontent, String.ofList_toList] at hspelled
  rw [writeText, String.toList_ofList]
  exact hspelled

-- ============================================================================
-- What is written spells the value
-- ============================================================================

theorem divided_join (pieces : List String) :
    Divided (Text.join "," pieces).toList (pieces.map String.toList) := by
  rw [Text.join, String.toList_intercalate]
  cases pieces with
  | nil => exact blank_nil
  | cons piece pieces =>
    induction pieces generalizing piece with
    | nil => simp [Divided]
    | cons next pieces ih =>
      have htail := ih next
      simp only [Divided, List.map_cons] at htail ⊢
      rw [List.intercalate_cons_cons, htail]
      simp

mutual

/-- What is written spells the value, but for the sign of a zero. -/
theorem spelled_write {n : Nat} : (v : Value) → v.Ordered → v.WholeNumbers → v.depth ≤ n →
    Spelled n (write v).toList v.jsonImage
  | .null, _, _, _ => .scalar .null
  | .bool true, _, _, _ => .scalar (.bool true)
  | .bool false, _, _, _ => .scalar (.bool false)
  | .number x, _, hwhole, _ => by
    obtain ⟨hinteger, hread⟩ := Number.number?_rendered hwhole
    have hfinite := (Number.units_eq_of_showsAsInteger hwhole).2.1
    rw [Value.jsonImage_number hfinite]
    exact .scalar (.number hinteger hread)
  | .text s, _, _, _ => .scalar (spellsScalar_writeText s)
  | .array items, hordered, hwhole, hdepth => by
    rw [Value.depth] at hdepth
    obtain ⟨m, rfl⟩ : ∃ m, n = m + 1 := ⟨n - 1, by omega⟩
    obtain ⟨parts, hpieces, hvalues, hparts⟩ :=
      spelled_writeItems items hordered hwhole (Nat.le_of_succ_le_succ hdepth)
    have htext : (write (.array items)).toList =
        '[' :: ((Text.join "," (writeItems items)).toList ++ [']']) := by
      simp [write]
    rw [htext, Value.jsonImage, ← hvalues]
    exact .array parts (hpieces ▸ divided_join _) hparts
  | .object fields, hordered, hwhole, hdepth => by
    rw [Value.depth] at hdepth
    obtain ⟨m, rfl⟩ : ∃ m, n = m + 1 := ⟨n - 1, by omega⟩
    obtain ⟨fs, hpieces, hentries, hfs⟩ :=
      spelled_writeFields fields hordered.2 hwhole (Nat.le_of_succ_le_succ hdepth)
    have htext : (write (.object fields)).toList =
        '\x7b' :: ((Text.join "," (writeFields fields)).toList ++ ['\x7d']) := by
      simp [write]
    have hrecord := Record.ofEntries_of_ordered (Value.ordered_jsonImageFields hordered.1)
    rw [htext, Value.jsonImage, ← hrecord, ← hentries]
    exact .object fs (hpieces ▸ divided_join _) hfs

/-- The elements that are written are the parts of an array. -/
theorem spelled_writeItems {n : Nat} : (items : List Value) → Value.ItemsOrdered items →
    Value.ItemsWhole items → Value.itemsDepth items ≤ n →
    ∃ parts : List Part, parts.map Part.piece = (writeItems items).map String.toList ∧
      parts.map Part.value = Value.jsonImageItems items ∧ ∀ p ∈ parts, Spelled n p.text p.value
  | [], _, _, _ => ⟨[], rfl, rfl, fun _ h => absurd h List.not_mem_nil⟩
  | v :: items, hordered, hwhole, hdepth => by
    rw [Value.itemsDepth, Nat.max_le] at hdepth
    have hv := spelled_write v hordered.1 hwhole.1 hdepth.1
    obtain ⟨parts, hpieces, hvalues, hparts⟩ :=
      spelled_writeItems items hordered.2 hwhole.2 hdepth.2
    let p : Part := ⟨(write v).toList, (write v).toList, v.jsonImage, Padded.self _⟩
    refine ⟨p :: parts, ?_, ?_, List.forall_mem_cons.2 ⟨hv, hparts⟩⟩
    · rw [List.map_cons, hpieces]
      rfl
    · rw [List.map_cons, hvalues]
      rfl

/-- The fields that are written are the fields of an object. -/
theorem spelled_writeFields {n : Nat} : (fields : List (String × Value)) →
    Value.FieldsOrdered fields → Value.FieldsWhole fields → Value.fieldsDepth fields ≤ n →
    ∃ fs : List Field, fs.map Field.piece = (writeFields fields).map String.toList ∧
      fs.map Field.entry = Value.jsonImageFields fields ∧
      ∀ f ∈ fs, Spelled n f.part.text f.part.value
  | [], _, _, _ => ⟨[], rfl, rfl, fun _ h => absurd h List.not_mem_nil⟩
  | (key, v) :: fields, hordered, hwhole, hdepth => by
    rw [Value.fieldsDepth, Nat.max_le] at hdepth
    have hv := spelled_write v hordered.1 hwhole.1 hdepth.1
    obtain ⟨fs, hpieces, hentries, hfs⟩ :=
      spelled_writeFields fields hordered.2 hwhole.2 hdepth.2
    let f : Field :=
      { keyPiece := (writeText key).toList
        keyText := (writeText key).toList
        key
        keyPadded := Padded.self _
        keySpelled := spellsScalar_writeText key
        part := ⟨(write v).toList, (write v).toList, v.jsonImage, Padded.self _⟩ }
    refine ⟨f :: fs, ?_, ?_, List.forall_mem_cons.2 ⟨hv, hfs⟩⟩
    · rw [List.map_cons, hpieces, writeFields, List.map_cons]
      simp [f, Field.piece]
    · rw [List.map_cons, hentries]
      rfl

end

-- ============================================================================
-- What spells a value is plain
-- ============================================================================

/-- A text that keeps what follows it plain. -/
def KeepsPlain (text : List Char) : Prop :=
  ∀ rest, Bounded rest → Plain rest → Plain (text ++ rest)

theorem not_word_of_isBlank {c : Char} (hc : Text.isBlank c = true) : isWordChar c = false := by
  rw [← Bool.not_eq_true]
  intro hword
  rw [(not_mark_of_isWordChar hword).1] at hc
  cases hc

theorem bounded_cons {c : Char} (hc : isWordChar c = false) (rest : List Char) :
    Bounded (c :: rest) := by
  intro d hd
  cases hd
  exact hc

/-- Blanks keep all as it is. -/
theorem plain_blanks {blanks rest : List Char} (hblanks : Blank blanks) (hrest : Plain rest) :
    Plain (blanks ++ rest) := by
  induction blanks with
  | nil => exact hrest
  | cons c blanks ih =>
    obtain ⟨hc, hblanks⟩ := List.forall_mem_cons.1 hblanks
    have hquote := (Source.not_mark_of_isBlank hc).2.1
    exact (plain_cons_iff (not_word_of_isBlank hc) hquote).2 (ih hblanks)

theorem bounded_blanks {blanks rest : List Char} (hblanks : Blank blanks) (hrest : Bounded rest) :
    Bounded (blanks ++ rest) := by
  cases blanks with
  | nil => exact hrest
  | cons c blanks => exact bounded_cons (not_word_of_isBlank (hblanks c List.mem_cons_self)) _

theorem KeepsPlain.padded {text piece : List Char} (h : KeepsPlain text)
    (hpiece : Padded text piece) : KeepsPlain piece := by
  obtain ⟨before, after, hbefore, hafter, rfl⟩ := hpiece
  intro rest hbounded hrest
  rw [List.append_assoc, List.append_assoc]
  exact plain_blanks hbefore (h _ (bounded_blanks hafter hbounded) (plain_blanks hafter hrest))

theorem SpellsScalar.keepsPlain {text : List Char} {v : Value} (h : SpellsScalar text v) :
    KeepsPlain text := by
  intro rest hbounded hrest
  cases h with
  | null => exact (plain_word_iff (List.all_eq_true.1 rfl) hbounded).2 ⟨by decide, hrest⟩
  | bool b =>
    cases b <;> exact (plain_word_iff (List.all_eq_true.1 rfl) hbounded).2 ⟨by decide, hrest⟩
  | number hinteger _ =>
    exact (plain_word_iff (isWordChar_of_isPlainInteger hinteger).2 hbounded).2
      ⟨fun _ => hinteger, hrest⟩
  | string hquote hbody hescapes =>
    rw [List.cons_append, List.append_assoc, List.singleton_append]
    exact (plain_string_iff hquote hbody).2 ⟨hescapes, hrest⟩

theorem KeepsPlain.between {content : List Char} (h : KeepsPlain content) {opening closing : Char}
    (hopening : isWordChar opening = false ∧ isQuote opening = false)
    (hclosing : isWordChar closing = false ∧ isQuote closing = false) :
    KeepsPlain (opening :: (content ++ [closing])) := by
  intro rest hbounded hrest
  rw [List.cons_append, List.append_assoc, List.singleton_append]
  refine (plain_cons_iff hopening.1 hopening.2).2 (h _ (bounded_cons hclosing.1 _) ?_)
  exact (plain_cons_iff hclosing.1 hclosing.2).2 hrest

theorem Divided.keepsPlain {content : List Char} {pieces : List (List Char)}
    (hcontent : Divided content pieces) (hpieces : ∀ p ∈ pieces, KeepsPlain p) :
    KeepsPlain content := by
  have hjoined : ∀ ps : List (List Char), (∀ p ∈ ps, KeepsPlain p) → ∀ rest, Bounded rest →
      Plain rest → Bounded (ps.flatMap (',' :: ·) ++ rest) ∧
        Plain (ps.flatMap (',' :: ·) ++ rest) := by
    intro ps hps rest hbounded hrest
    induction ps with
    | nil => exact ⟨hbounded, hrest⟩
    | cons p ps ih =>
      rw [List.forall_mem_cons] at hps
      obtain ⟨hboundedTail, htail⟩ := ih hps.2
      rw [List.flatMap_cons, List.append_assoc]
      exact ⟨bounded_cons rfl _, (plain_cons_iff rfl rfl).2 (hps.1 _ hboundedTail htail)⟩
  intro rest hbounded hrest
  cases pieces with
  | nil => exact plain_blanks hcontent hrest
  | cons p ps =>
    rw [List.forall_mem_cons] at hpieces
    rw [hcontent, List.append_assoc]
    obtain ⟨hboundedTail, htail⟩ := hjoined ps hpieces.2 rest hbounded hrest
    exact hpieces.1 _ hboundedTail htail

theorem Spelled.keepsPlain {n : Nat} {text : List Char} {v : Value} (h : Spelled n text v) :
    KeepsPlain text := by
  induction h with
  | scalar h => exact h.keepsPlain
  | array parts hcontent _ ih =>
    refine (hcontent.keepsPlain fun piece hpiece => ?_).between ⟨rfl, rfl⟩ ⟨rfl, rfl⟩
    obtain ⟨p, hp, rfl⟩ := List.mem_map.1 hpiece
    exact (ih p hp).padded p.padded
  | object fields hcontent _ ih =>
    refine (hcontent.keepsPlain fun piece hpiece => ?_).between ⟨rfl, rfl⟩ ⟨rfl, rfl⟩
    obtain ⟨f, hf, rfl⟩ := List.mem_map.1 hpiece
    intro rest hbounded hrest
    rw [Field.piece, List.append_assoc, List.cons_append]
    have hvalue := (ih f hf).padded f.part.padded rest hbounded hrest
    exact f.keySpelled.keepsPlain.padded f.keyPadded _ (bounded_cons rfl _)
      ((plain_cons_iff rfl rfl).2 hvalue)

theorem Spelled.plain {n : Nat} {text : List Char} {v : Value} (h : Spelled n text v) :
    Plain text := by
  have hnil : Plain [] := ⟨by decide, by decide⟩
  have htext := h.keepsPlain [] (fun _ hc => by cases hc) hnil
  rwa [List.append_nil] at htext

-- ============================================================================
-- Reading back
-- ============================================================================

theorem Spelled.scalar_or_bracketed {n : Nat} {text : List Char} {v : Value}
    (h : Spelled n text v) :
    scalar? text = some v ∨ scalar? text = none ∧ isBracketed text = true := by
  cases h with
  | scalar h => exact .inl h.scalar?_eq
  | array =>
    exact .inr ⟨scalar?_brackets (.inl rfl) _, isBracketed_brackets (.inl ⟨rfl, rfl⟩) _⟩
  | object =>
    exact .inr ⟨scalar?_brackets (.inr rfl) _, isBracketed_brackets (.inr ⟨rfl, rfl⟩) _⟩

/-- What spells a value is read as this value, by whichever reader takes it. -/
theorem Spelled.read_eq {json : Json.Reader} {limit : Nat} (hjson : json.Conforms limit)
    (hlimit : limit ≤ maxDepth) {n : Nat} {text : List Char} {v : Value} (h : Spelled n text v)
    (hn : n ≤ maxDepth) : readAt json 0 text = v := by
  rw [Literal.readAt_eq, Text.trimChars_of_solid h.solid]
  rcases h.scalar_or_bracketed with hscalar | ⟨hscalar, hbracketed⟩
  · rw [hscalar]
  · have hlenient : readLenient json 0 text = v := h.readLenient_eq hscalar (by omega)
    have hstrict : (readAt.strict? json 0 text).getD (readLenient json 0 text) = v := by
      cases hread : readAt.strict? json 0 text with
      | none => exact hlenient
      | some w =>
        -- The strict reader takes the text: then it spells what this reader gives, too.
        have hspelled : Spelled limit text w :=
          spelled_of_conforms hjson h.plain h.solid hread
        calc (some w).getD (readLenient json 0 text) = w := rfl
          _ = readLenient json 0 text := (hspelled.readLenient_eq hscalar (by omega)).symm
          _ = v := hlenient
    rw [hscalar]
    simp only [hbracketed, Bool.true_and]
    exact hstrict

end Literal

namespace Number

/-- Finite numbers with one key are equal. -/
theorem eq_of_numericKey {x y : Number} (hx : isFinite x = true) (hy : isFinite y = true)
    (hkey : numericKey x = numericKey y) : eq x y = true := by
  have hnumber : ∀ {z : Number}, isFinite z = true → isNaN z = false := by
    intro z hz
    simp only [isFinite, isNaN, decide_eq_true_eq, decide_eq_false_iff_not] at hz ⊢
    omega
  simp [eq, compare?, hnumber hx, hnumber hy, hkey]

theorem numericKey_of_isZero {x : Number} (hx : isZero x = true) : numericKey x = 0 := by
  simp [numericKey, beq_iff_eq.1 hx]

end Number

namespace Value

mutual

/-- A pass through JSON changes a value with whole numbers in the sign of zeros only. -/
theorem same_jsonImage : (v : Value) → v.WholeNumbers → v.jsonImage.same v = true
  | .null, _ => rfl
  | .bool b, _ => by simp [jsonImage, same]
  | .number x, hwhole => by
    have hfinite := (Number.units_eq_of_showsAsInteger hwhole).2.1
    rw [jsonImage_number hfinite, same]
    by_cases hzero : Number.isZero x = true
    · rw [if_pos hzero]
      refine Number.eq_of_numericKey (by decide) hfinite ?_
      rw [Number.numericKey_of_isZero hzero, Number.numericKey_of_isZero (by decide)]
    · rw [if_neg hzero]
      exact Number.eq_of_numericKey hfinite hfinite rfl
  | .text s, _ => by simp [jsonImage, same]
  | .array items, hwhole => by
    rw [jsonImage, same]
    exact sameItems_jsonImage items hwhole
  | .object fields, hwhole => by
    rw [jsonImage, same]
    exact sameFields_jsonImage fields hwhole

theorem sameItems_jsonImage : (items : List Value) → ItemsWhole items →
    sameItems (jsonImageItems items) items = true
  | [], _ => rfl
  | v :: items, hwhole => by
    rw [jsonImageItems, sameItems, same_jsonImage v hwhole.1, sameItems_jsonImage items hwhole.2]
    rfl

theorem sameFields_jsonImage : (fields : List (String × Value)) → FieldsWhole fields →
    sameFields (jsonImageFields fields) fields = true
  | [], _ => rfl
  | (key, v) :: fields, hwhole => by
    rw [jsonImageFields, sameFields, same_jsonImage v hwhole.1,
      sameFields_jsonImage fields hwhole.2, beq_self_eq_true]
    rfl

end

end Value

namespace Literal

/-- A value that is nested at most 128 deep, and whose numbers are whole and below 10^15, reads
back from what is written for it, whatever its texts and keys are, and whichever strict reader is
asked first, as long as it conforms to the grammar of JSON and takes no more than 128 levels. It
comes back as it would from JSON, so a negative zero comes back as zero. -/
theorem read_write (json : Json.Reader) (limit : Nat) (hjson : json.Conforms limit)
    (hlimit : limit ≤ maxDepth) (v : Value) (hordered : v.Ordered) (hdepth : v.depth ≤ maxDepth)
    (hwhole : v.WholeNumbers) :
    (read json (write v)).same v = true ∧ read json (write v) = v.jsonImage := by
  have hread : read json (write v) = v.jsonImage :=
    (spelled_write v hordered hwhole (Nat.le_refl _)).read_eq hjson hlimit hdepth
  rw [hread]
  exact ⟨Value.same_jsonImage v hwhole, rfl⟩

/-- A value inside of this many arrays. -/
def nested : Nat → Value → Value
  | 0, v => v
  | n + 1, v => .array [nested n v]

theorem nested_fits {v : Value} (hordered : v.Ordered) (hwhole : v.WholeNumbers) (n : Nat) :
    (nested n v).Ordered ∧ (nested n v).WholeNumbers ∧ (nested n v).depth = v.depth + n := by
  induction n with
  | zero => exact ⟨hordered, hwhole, rfl⟩
  | succ n ih =>
    obtain ⟨hnested, hnestedWhole, hdepth⟩ := ih
    refine ⟨⟨hnested, trivial⟩, ⟨hnestedWhole, trivial⟩, ?_⟩
    simp [nested, Value.depth, Value.itemsDepth, hdepth, Nat.add_assoc]

/-- Keys and a text that are full of quotes, backslashes, brackets, separators and controls, and a
negative zero. -/
def trickyValue : Value :=
  .object [("\"k]:", .number (Number.zero true)), ("a\\", .text "',\n\x00\"\\\x7d")]

/-- At the deepest nesting, which the strict reader refuses. -/
theorem read_write_deepest :
    (nested 127 trickyValue).depth = maxDepth ∧
    (read Json.readChars? (write (nested 127 trickyValue))).same (nested 127 trickyValue) =
      true := by
  have hordered : trickyValue.Ordered := by
    refine ⟨?_, trivial, trivial, trivial⟩
    unfold Record.Ordered
    decide
  have hwhole : trickyValue.WholeNumbers := by
    refine ⟨?_, trivial, trivial⟩
    unfold Value.WholeNumbers
    decide +kernel
  obtain ⟨hdeepOrdered, hdeepWhole, hdepth⟩ := nested_fits hordered hwhole 127
  have hdeepest : (nested 127 trickyValue).depth = maxDepth := by
    rw [hdepth]
    decide
  exact ⟨hdeepest, (read_write Json.readChars? (Json.depthLimit - 1) Json.conforms_readChars?
    (by decide) _ hdeepOrdered (Nat.le_of_eq hdeepest) hdeepWhole).1⟩

end Literal

end Sluice
