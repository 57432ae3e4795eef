/-
  Sluice.Proofs.Network.Query

  Query strings. What the encoder writes stands for the bytes that were encoded, so it is decoded to
  the text it was written from. It holds none of the characters that part a query, so the pairs of a
  query that is put together from encoded texts are found again.

  Main statement: encoded text decodes to itself, and an encoded query is parsed to the object in
  which each key has its last value.
-/

import Sluice.Proofs.Network.Percent
import Sluice.Proofs.Record
import Sluice.Proofs.Text.Cut

namespace Sluice.Network

-- ============================================================================
-- Encoded text
-- ============================================================================

theorem hexValue?_hexDigit : ∀ n < 16, Text.hexValue? (hexDigit n) = some n := by
  decide

/-- A byte is read back from its two digits. -/
theorem hexByte?_hexDigit (b : UInt8) :
    hexByte? (hexDigit (b.toNat / 16)) (hexDigit (b.toNat % 16)) = some b := by
  have hlt := b.toNat_lt
  have hhigh := hexValue?_hexDigit (b.toNat / 16) (by omega)
  have hlow := hexValue?_hexDigit (b.toNat % 16) (by omega)
  simp only [hexByte?, hhigh, hlow, Nat.div_add_mod, UInt8.ofNat_toNat]

/-- The characters that part a query. -/
def separators : List Char := ['?', '&', '=']

/-- A byte that stands for itself is an ASCII character. It marks neither an escape nor a space, and
does not part a query. -/
theorem isPlain_spec {b : UInt8} (h : isPlain b = true) :
    b.toNat < 0x80 ∧ Char.ofNat b.toNat ∉ '%' :: '+' :: separators := by
  have hmarks : ∀ c ∈ '%' :: '+' :: separators, (Text.isAsciiLetter c || Text.isDigit c ||
      c == '-' || c == '_' || c == '.' || c == '~') = false := by
    intro c hc
    simp only [separators, List.mem_cons, List.not_mem_nil, or_false] at hc
    rcases hc with rfl | rfl | rfl | rfl | rfl <;> decide
  unfold isPlain at h
  refine ⟨?_, fun hmem => ?_⟩
  · rw [← toNat_charOfByte b]
    simp only [Text.isAsciiLetter, Text.isDigit, Bool.or_eq_true, Bool.and_eq_true,
      decide_eq_true_eq, beq_iff_eq] at h
    rcases h with ((((h | h) | h) | h) | h) | h
    · omega
    · omega
    all_goals
      rw [h]
      decide
  · rw [hmarks _ hmem] at h
    cases h

/-- What the encoder writes stands for the bytes it was written from. -/
theorem stands_encodeByte (bs : List UInt8) : Stands hexByte? (bs.flatMap encodeByte) bs := by
  induction bs with
  | nil => exact .nil
  | cons b bs ih =>
    rw [List.flatMap_cons, encodeByte]
    split
    · next hplain =>
      obtain ⟨hascii, hmark⟩ := isPlain_spec hplain
      have hchar : String.utf8EncodeChar (Char.ofNat b.toNat) = [b] := by
        rw [Text.utf8EncodeChar_ascii (by rwa [toNat_charOfByte]), toNat_charOfByte,
          UInt8.ofNat_toNat]
      have hstands : Stands hexByte? (Char.ofNat b.toNat :: bs.flatMap encodeByte)
          (String.utf8EncodeChar (Char.ofNat b.toNat) ++ bs) := by
        refine .char ?_ ?_ ih
        · exact fun heq => hmark (heq ▸ List.mem_cons_self)
        · exact fun heq => hmark (heq ▸ List.mem_cons_of_mem _ List.mem_cons_self)
      rwa [hchar] at hstands
    · exact .escape (hexByte?_hexDigit b) ih

theorem decode_encode (s : String) : decode (encode s) = .ok s := by
  rw [decode_eq_ok_iff, encode, String.toList_ofList]
  exact (stands_encodeByte (bytes s)).mono escapeChar?_of_hexByte?

/-- No character of an encoded text parts a query. -/
theorem not_mem_separators {s : String} {c : Char} (h : c ∈ (encode s).toList) :
    c ∉ separators := by
  have hdigit : ∀ n < 16, hexDigit n ∉ separators := by
    decide
  rw [encode, String.toList_ofList, List.mem_flatMap] at h
  obtain ⟨b, -, hc⟩ := h
  have hlt := b.toNat_lt
  rw [encodeByte] at hc
  split at hc
  · next hplain =>
    obtain rfl := List.mem_singleton.1 hc
    intro hmem
    exact (isPlain_spec hplain).2 (List.mem_cons_of_mem _ (List.mem_cons_of_mem _ hmem))
  · simp only [List.mem_cons, List.not_mem_nil, or_false] at hc
    rcases hc with rfl | rfl | rfl
    · decide
    · exact hdigit _ (by omega)
    · exact hdigit _ (by omega)

-- ============================================================================
-- Queries
-- ============================================================================

/-- A pair of a query: an encoded key and an encoded value. -/
def encodePair (pair : String × String) : String :=
  encode pair.1 ++ "=" ++ encode pair.2

/-- The query of some pairs. -/
def encodeQuery (pairs : List (String × String)) : String :=
  Text.join "&" (pairs.map encodePair)

theorem toList_encodePair (pair : String × String) :
    (encodePair pair).toList = (encode pair.1).toList ++ '=' :: (encode pair.2).toList := by
  rw [encodePair, String.toList_append, String.toList_append, List.append_assoc]
  rfl

/-- Neither a question mark nor an ampersand is part of a pair. -/
theorem not_mem_encodePair {c : Char} (h : c ∈ separators) (hc : c ≠ '=')
    (pair : String × String) : c ∉ (encodePair pair).toList := by
  rw [toList_encodePair, List.mem_append, List.mem_cons, not_or, not_or]
  exact ⟨fun hkey => not_mem_separators hkey h, hc, fun hvalue => not_mem_separators hvalue h⟩

/-- The first separator of two texts is found behind the first one, if that does not have it. -/
theorem splitOnce_append {sep : Char} {front : List Char} (h : sep ∉ front) (back : List Char) :
    Text.splitOnce sep (front ++ sep :: back) = some (front, back) := by
  induction front with
  | nil => rw [List.nil_append, Text.splitOnce, if_pos rfl]
  | cons c front ih =>
    rw [List.mem_cons, not_or] at h
    rw [List.cons_append, Text.splitOnce, if_neg (Ne.symm h.1), ih h.2]
    rfl

/-- A pair is parsed to its key and its value. -/
theorem queryPair_encodePair (pair : String × String) :
    queryPair (encodePair pair).toList = .ok (pair.1, .text pair.2) := by
  have hkey : '=' ∉ (encode pair.1).toList := fun h => not_mem_separators h (by decide)
  rw [queryPair, toList_encodePair, splitOnce_append hkey]
  simp only [Option.getD_some, String.ofList_toList, decode_encode]
  rfl

theorem mapM_queryPair (pairs : List (String × String)) :
    (pairs.map fun pair => (encodePair pair).toList).mapM queryPair =
      .ok (pairs.map fun pair => (pair.1, Value.text pair.2)) := by
  induction pairs with
  | nil => rfl
  | cons pair pairs ih =>
    rw [List.map_cons, List.mapM_cons, queryPair_encodePair, ih]
    rfl

theorem toList_encodeQuery (pairs : List (String × String)) :
    (encodeQuery pairs).toList =
      Text.joinWith ['&'] (pairs.map fun pair => (encodePair pair).toList) := by
  rw [encodeQuery, Text.toList_join, List.map_map]
  rfl

/-- Pairs are not empty, and have no ampersand, so they are the pieces of their query. -/
theorem pieces_encodeQuery (pairs : List (String × String)) :
    (Text.splitAtChar '&' (encodeQuery pairs).toList).filter (fun piece => !piece.isEmpty) =
      pairs.map fun pair => (encodePair pair).toList := by
  rw [toList_encodeQuery]
  cases pairs with
  | nil => rfl
  | cons pair pairs =>
    have hpieces : ∀ piece ∈ (pair :: pairs).map fun pair => (encodePair pair).toList,
        '&' ∉ piece ∧ (!piece.isEmpty) = true := by
      intro piece hpiece
      obtain ⟨other, -, rfl⟩ := List.mem_map.1 hpiece
      refine ⟨not_mem_encodePair (by decide) (by decide) other, ?_⟩
      rw [toList_encodePair]
      simp
    rw [List.map_cons] at hpieces ⊢
    rw [Text.splitAtChar_joinWith fun piece hpiece => (hpieces piece hpiece).1,
      List.filter_eq_self]
    exact fun piece hpiece => (hpieces piece hpiece).2

/-- No question mark is stripped from a query. -/
theorem not_mem_encodeQuery (pairs : List (String × String)) :
    '?' ∉ (encodeQuery pairs).toList := by
  rw [toList_encodeQuery]
  intro h
  rcases Text.mem_joinWith h with hsep | ⟨piece, hpiece, hmem⟩
  · exact absurd hsep (by decide)
  · obtain ⟨pair, -, rfl⟩ := List.mem_map.1 hpiece
    exact not_mem_encodePair (by decide) (by decide) pair hmem

theorem parseQuery_encodeQuery (pairs : List (String × String)) (args : Arguments) :
    parseQuery (.text (encodeQuery pairs)) args =
      .ok (.object (Record.ofEntries (pairs.map fun pair => (pair.1, Value.text pair.2)))) := by
  have hstrip : (encodeQuery pairs).toList.dropWhile (· == '?') = (encodeQuery pairs).toList := by
    have hmark := not_mem_encodeQuery pairs
    cases hquery : (encodeQuery pairs).toList with
    | nil => rfl
    | cons c query =>
      rw [hquery, List.mem_cons, not_or] at hmark
      exact List.dropWhile_cons_of_neg (by simpa using Ne.symm hmark.1)
  show (do
    let query := (encodeQuery pairs).toList.dropWhile (· == '?')
    let pieces := (Text.splitAtChar '&' query).filter fun piece => !piece.isEmpty
    return Value.object (Record.ofEntries (← pieces.mapM queryPair)) : Attempt Value) = _
  simp only [hstrip, pieces_encodeQuery, mapM_queryPair]
  rfl

/-- Encoding is undone by decoding, and putting a query together by parsing it: the result is an
object, and under each key it has the last value that was paired with it. -/
theorem queries_round_trip :
    (∀ s, decode (encode s) = .ok s) ∧
    ∀ (pairs : List (String × String)) (args : Arguments), ∃ fields : Record Value,
      parseQuery (.text (encodeQuery pairs)) args = .ok (.object fields) ∧
      fields.Ordered ∧
      ∀ key, fields.get? key =
        (pairs.reverse.find? fun pair => pair.1 == key).map fun pair => .text pair.2 := by
  refine ⟨decode_encode, fun pairs args => ⟨_, parseQuery_encodeQuery pairs args,
    Record.ordered_ofEntries _, fun key => ?_⟩⟩
  rw [Record.get?_ofEntries, ← List.map_reverse, List.find?_map, Option.map_map]
  rfl

end Sluice.Network
