/-
  Sluice.Proofs.Literal.Strict

  A strict reader and the lenient reader agree.

  Any reader will do that conforms to the grammar of JSON. The text that it takes has tokens that
  derive its value, and each rule of a derivation is met by the text itself: between its brackets
  stand pieces with the tokens of the elements, and these spell the elements
  (`spelled_of_derives`). The lenient reader is known to read a text that spells a value.
-/

import Mathlib.Data.List.Forall2
import Sluice.Proofs.Json.Reading
import Sluice.Proofs.Literal.Tokens

namespace Sluice.Literal

open Text (Blank Solid Padded)
open Json (Derives Element Member Token separated)

-- ============================================================================
-- Parts of a text
-- ============================================================================

theorem blank_nil : Blank [] :=
  fun _ h => absurd h List.not_mem_nil

theorem Lexed.blank_of_nil {text : List Char} (h : Lexed text []) : Blank text := by
  generalize htokens : ([] : List Token) = tokens at h
  induction h with
  | nil => exact blank_nil
  | blank hc _ ih => exact List.forall_mem_cons.2 ⟨hc, ih htokens⟩
  | token => cases htokens

/-- Blanks at the end belong to no token. -/
theorem Lexed.append_blank {text blanks : List Char} {tokens : List Token} (h : Lexed text tokens)
    (hblanks : Blank blanks) : Lexed (text ++ blanks) tokens := by
  induction h with
  | nil =>
    induction blanks with
    | nil => exact .nil
    | cons c blanks ih =>
      rw [Blank, List.forall_mem_cons] at hblanks
      exact .blank hblanks.1 (ih hblanks.2)
  | blank hc _ ih => exact .blank hc ih
  | token ht _ ih =>
    rw [List.append_assoc]
    exact .token ht ih

/-- A text falls apart where its tokens do. -/
theorem Lexed.exists_append {text : List Char} {tokens more : List Token}
    (h : Lexed text (tokens ++ more)) :
    ∃ front back, text = front ++ back ∧ Lexed front tokens ∧ Lexed back more := by
  generalize hall : tokens ++ more = all at h
  induction h generalizing tokens with
  | nil =>
    obtain ⟨rfl, rfl⟩ := List.append_eq_nil_iff.1 hall
    exact ⟨[], [], rfl, .nil, .nil⟩
  | blank hc _ ih =>
    obtain ⟨front, back, rfl, hfront, hback⟩ := ih hall
    exact ⟨_ :: front, back, rfl, .blank hc hfront, hback⟩
  | token ht htext ih =>
    cases tokens with
    | nil =>
      cases hall
      exact ⟨[], _, rfl, .nil, .token ht htext⟩
    | cons token tokens =>
      obtain ⟨rfl, hrest⟩ := List.cons.inj hall
      obtain ⟨front, back, rfl, hfront, hback⟩ := ih hrest
      exact ⟨_ ++ front, back, (List.append_assoc ..).symm, .token ht hfront, hback⟩

/-- The stretch of the first token stands behind blanks. -/
theorem Lexed.exists_cons {text : List Char} {token : Token} {tokens : List Token}
    (h : Lexed text (token :: tokens)) :
    ∃ blanks stretch rest, Blank blanks ∧ text = blanks ++ (stretch ++ rest) ∧
      Stretch token stretch ∧ Lexed rest tokens := by
  generalize hall : token :: tokens = all at h
  induction h with
  | nil => cases hall
  | @blank c _ _ hc _ ih =>
    obtain ⟨blanks, stretch, rest, hblanks, rfl, ht, hrest⟩ := ih hall
    exact ⟨c :: blanks, stretch, rest, List.forall_mem_cons.2 ⟨hc, hblanks⟩, rfl, ht, hrest⟩
  | token ht htext =>
    obtain ⟨rfl, rfl⟩ := List.cons.inj hall
    exact ⟨[], _, _, blank_nil, rfl, ht, htext⟩

/-- A text with one token is its stretch, with blanks around it. -/
theorem Lexed.exists_padded {text : List Char} {token : Token} (h : Lexed text [token]) :
    ∃ stretch, Padded stretch text ∧ Stretch token stretch := by
  obtain ⟨before, stretch, after, hbefore, rfl, ht, hafter⟩ := h.exists_cons
  exact ⟨stretch, ⟨before, after, hbefore, hafter.blank_of_nil, (List.append_assoc ..).symm⟩, ht⟩

-- ============================================================================
-- Collections
-- ============================================================================

/-- A text whose tokens stand between two brackets. -/
theorem Lexed.exists_brackets {text : List Char} {left right : Token} {tokens : List Token}
    {opening closing : Char} (h : Lexed text (left :: (tokens ++ [right])))
    (hleft : ∀ stretch, Stretch left stretch → stretch = [opening])
    (hright : ∀ stretch, Stretch right stretch → stretch = [closing]) :
    ∃ content, Padded (opening :: (content ++ [closing])) text ∧ Lexed content tokens := by
  obtain ⟨before, stretch, rest, hbefore, rfl, hstretch, hrest⟩ := h.exists_cons
  cases hleft _ hstretch
  obtain ⟨content, back, rfl, hcontent, hback⟩ := hrest.exists_append
  obtain ⟨_, ⟨blanks, after, hblanks, hafter, rfl⟩, hstretch⟩ := hback.exists_padded
  cases hright _ hstretch
  -- The blanks in front of the second bracket are part of the content.
  exact ⟨content ++ blanks, ⟨before, after, hbefore, hafter, by simp⟩,
    hcontent.append_blank hblanks⟩

/-- A text whose tokens are pieces with commas between them. -/
theorem Lexed.exists_pieces {content : List Char} {pieces : List (List Token)}
    (h : Lexed content (separated pieces)) :
    ∃ texts, Divided content texts ∧ List.Forall₂ Lexed texts pieces := by
  cases pieces with
  | nil => exact ⟨[], h.blank_of_nil, .nil⟩
  | cons piece pieces =>
    rw [separated] at h
    induction pieces generalizing content piece with
    | nil =>
      rw [List.flatMap_nil, List.append_nil] at h
      exact ⟨[content], (List.append_nil _).symm, .cons h .nil⟩
    | cons next pieces ih =>
      obtain ⟨text, back, rfl, htext, hback⟩ := h.exists_append
      obtain ⟨blanks, _, rest, hblanks, rfl, rfl, hrest⟩ := hback.exists_cons
      obtain ⟨texts, hdivided, htexts⟩ := ih next hrest
      -- The blanks in front of the comma belong to the piece.
      refine ⟨(text ++ blanks) :: texts, ?_, .cons (htext.append_blank hblanks) htexts⟩
      cases htexts
      rw [show rest = _ from hdivided]
      simp [Divided]

section Pieces

variable {α β γ : Type} {piece : γ → List Char} {tokens : α → List Token} {value : α → β}
  {image : γ → β} {Good : γ → Prop}

/-- What each piece of a collection is, all of them are. -/
theorem exists_of_pieces {elements : List α} {texts : List (List Char)}
    (h : List.Forall₂ Lexed texts (elements.map tokens))
    (hpiece : ∀ e ∈ elements, ∀ text, Lexed text (tokens e) →
      ∃ p, piece p = text ∧ image p = value e ∧ Good p) :
    ∃ ps : List γ, ps.map piece = texts ∧ ps.map image = elements.map value ∧ ∀ p ∈ ps, Good p := by
  induction elements generalizing texts with
  | nil =>
    cases h
    exact ⟨[], rfl, rfl, List.forall_mem_nil _⟩
  | cons e elements ih =>
    rw [List.forall_mem_cons] at hpiece
    obtain ⟨text, texts, htext, htexts, rfl⟩ := List.forall₂_cons_right_iff.1 h
    obtain ⟨p, rfl, hvalue, hp⟩ := hpiece.1 text htext
    obtain ⟨ps, rfl, hvalues, hps⟩ := ih htexts hpiece.2
    refine ⟨p :: ps, rfl, ?_, List.forall_mem_cons.2 ⟨hp, hps⟩⟩
    rw [List.map_cons, hvalue, hvalues, List.map_cons]

end Pieces

variable {limit n : Nat} {v : Value}

/-- A text with the tokens of a member is a field. -/
theorem exists_field {m : Member} {text : List Char} (h : Lexed text m.piece)
    (hvalue : ∀ text, Lexed text m.tokens →
      ∃ spelling, Padded spelling text ∧ Spelled n spelling m.value) :
    ∃ f : Field, f.piece = text ∧ f.entry = m.entry ∧ Spelled n f.part.text f.part.value := by
  obtain ⟨before, key, behindKey, hbefore, rfl, hkey, hcolon⟩ := h.exists_cons
  obtain ⟨after, _, behindColon, hafter, rfl, rfl, hrest⟩ := hcolon.exists_cons
  obtain ⟨spelling, hpadded, hspelled⟩ := hvalue _ hrest
  let f : Field :=
    { keyPiece := before ++ key ++ after
      keyText := key
      key := m.key
      keyPadded := ⟨before, after, hbefore, hafter, rfl⟩
      keySpelled := hkey
      part := ⟨behindColon, spelling, m.value, hpadded⟩ }
  exact ⟨f, by simp [f, Field.piece], rfl, hspelled⟩

-- ============================================================================
-- Derivations
-- ============================================================================

/-- A text spells the value that its tokens derive. -/
theorem spelled_of_derives {tokens : List Token} (h : Derives n tokens v) {text : List Char}
    (htext : Lexed text tokens) : ∃ spelling, Padded spelling text ∧ Spelled n spelling v := by
  have hscalar : ∀ {token value n text}, Lexed text [token] →
      (∀ stretch, Stretch token stretch → SpellsScalar stretch value) →
      ∃ spelling, Padded spelling text ∧ Spelled n spelling value := by
    intro token value n text htext hspells
    obtain ⟨stretch, hpadded, hstretch⟩ := htext.exists_padded
    exact ⟨stretch, hpadded, .scalar (hspells _ hstretch)⟩
  induction h generalizing text with
  | null => exact hscalar htext fun _ h => h
  | bool => exact hscalar htext fun _ h => h
  | number => exact hscalar htext fun _ h => h
  | text => exact hscalar htext fun _ h => h
  | @array n elements _ ih =>
    obtain ⟨content, hpadded, hcontent⟩ :=
      htext.exists_brackets (fun _ h => h) fun _ h => h
    obtain ⟨texts, hdivided, htexts⟩ := hcontent.exists_pieces
    obtain ⟨parts, rfl, hvalues, hparts⟩ :
        ∃ parts : List Part, parts.map Part.piece = texts ∧
          parts.map Part.value = elements.map Element.value ∧
          ∀ p ∈ parts, Spelled n p.text p.value := by
      refine exists_of_pieces htexts fun e he text htext => ?_
      obtain ⟨spelling, hpadded, hspelled⟩ := ih e he htext
      exact ⟨⟨text, spelling, e.value, hpadded⟩, rfl, rfl, hspelled⟩
    rw [← hvalues]
    exact ⟨_, hpadded, .array parts hdivided hparts⟩
  | @object n members _ ih =>
    obtain ⟨content, hpadded, hcontent⟩ :=
      htext.exists_brackets (fun _ h => h) fun _ h => h
    obtain ⟨texts, hdivided, htexts⟩ := hcontent.exists_pieces
    obtain ⟨fields, rfl, hentries, hfields⟩ :
        ∃ fields : List Field, fields.map Field.piece = texts ∧
          fields.map Field.entry = members.map Member.entry ∧
          ∀ f ∈ fields, Spelled n f.part.text f.part.value :=
      exists_of_pieces htexts fun m hm _ htext => exists_field htext fun _ => ih m hm
    rw [← hentries]
    exact ⟨_, hpadded, .object fields hdivided hfields⟩

/-- A plain text that a strict reader takes spells the value that the reader gives. -/
theorem spelled_of_conforms {json : Json.Reader} (hjson : json.Conforms limit)
    {text : List Char} (hplain : Plain text) (hsolid : Solid text)
    (h : json (normalizeQuotes none text) = some v) : Spelled limit text v := by
  obtain ⟨tokens, hlexical, hderives⟩ := hjson _ _ h
  obtain ⟨spelling, hpadded, hspelled⟩ :=
    spelled_of_derives hderives (lexed_of_lexical hplain hlexical)
  -- Blanks around it would have to be in the text.
  have heq : text = spelling := by
    rw [← Text.trimChars_of_padded hspelled.solid hpadded, Text.trimChars_of_solid hsolid]
  rw [heq]
  exact hspelled

-- ============================================================================
-- The two readers
-- ============================================================================

theorem exists_of_isWrapped {opening closing : Char} {text : List Char}
    (h : isWrapped opening closing text = true) :
    ∃ content, text = opening :: (content ++ [closing]) := by
  simp only [isWrapped, Bool.and_eq_true, decide_eq_true_eq, beq_iff_eq] at h
  obtain ⟨⟨hlength, hhead⟩, hlast⟩ := h
  rcases text with _ | ⟨c, _ | ⟨d, rest⟩⟩
  · cases hhead
  · simp at hlength
  · cases hhead
    rw [List.getLast?_cons_cons] at hlast
    obtain ⟨content, hcontent⟩ := List.getLast?_eq_some_iff.1 hlast
    exact ⟨content, by rw [hcontent]⟩

/-- A bracketed text has no blanks at its ends, and is no scalar. -/
theorem solid_of_isBracketed {text : List Char} (h : isBracketed text = true) :
    Solid text ∧ scalar? text = none := by
  rw [isBracketed, Bool.or_eq_true] at h
  rcases h with h | h
  · obtain ⟨content, rfl⟩ := exists_of_isWrapped h
    exact ⟨Text.solid_brackets rfl rfl content, scalar?_brackets (.inl rfl) _⟩
  · obtain ⟨content, rfl⟩ := exists_of_isWrapped h
    exact ⟨Text.solid_brackets rfl rfl content, scalar?_brackets (.inr rfl) _⟩

/-- A bracketed plain text that a strict reader takes once its quotes are double is read as the
same value by the lenient reader, which splits it and reads its parts. It is so too where it is
part of other collections, and only the lenient reader is asked, as long as these and its own stay
within the cap. -/
theorem readLenient_eq_strict (json : Json.Reader) (limit : Nat) (hjson : json.Conforms limit)
    (hlimit : limit ≤ maxDepth) (text : List Char) (hbracketed : isBracketed text = true)
    (hplain : Plain text) (v : Value) (hstrict : json (normalizeQuotes none text) = some v) :
    readLenient json 0 text = v ∧
      ∀ depth, 0 < depth → depth + limit ≤ maxDepth → readAt json depth text = v := by
  obtain ⟨hsolid, hscalar⟩ := solid_of_isBracketed hbracketed
  have hspelled := spelled_of_conforms hjson hplain hsolid hstrict
  exact ⟨hspelled.readLenient_eq hscalar (by omega),
    fun _ hbelow hdepth => hspelled.readAt_eq hbelow hdepth⟩

/-- Both kinds of quotes, separators and brackets inside of strings, every escape, and a key that
comes twice. -/
def mixedText : List Char := String.toList
  "\x7b'a': [1, -0], \"b,]\" : \x7b\"\\\"\\u00e9\": 'x\\'y\"z' \x7d ,'a': [\"\\n\\\\\", true]\x7d"

theorem readLenient_eq_strict_mixed :
    isBracketed mixedText = true ∧ Plain mixedText ∧
    ∃ v, Json.readChars? (normalizeQuotes none mixedText) = some v ∧
      v.render = "\x7b\"a\":[\"\\n\\\\\",true],\"b,]\":\x7b\"\\\"é\":\"x\'y\\\"z\"\x7d\x7d" ∧
      readLenient Json.readChars? 0 mixedText = v ∧ readAt Json.readChars? 1 mixedText = v := by
  have hbracketed : isBracketed mixedText = true := by decide
  have hplain : Plain mixedText := ⟨by decide, by decide⟩
  have hread : (Json.readChars? (normalizeQuotes none mixedText)).map Value.render =
      some "\x7b\"a\":[\"\\n\\\\\",true],\"b,]\":\x7b\"\\\"é\":\"x\'y\\\"z\"\x7d\x7d" := by
    decide +kernel
  obtain ⟨v, hv, hrender⟩ := Option.map_eq_some_iff.1 hread
  obtain ⟨hlenient, hbelow⟩ := readLenient_eq_strict Json.readChars? (Json.depthLimit - 1)
    Json.conforms_readChars? (by decide) mixedText hbracketed hplain v hv
  exact ⟨hbracketed, hplain, v, hv, hrender, hlenient, hbelow 1 (by decide) (by decide)⟩

end Sluice.Literal
