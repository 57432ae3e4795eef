/-
  Sluice.Proofs.Network.Percent

  Percent encoding. `Stands` says what bytes a text stands for, character by character and without
  reference to the decoder: an escape for its byte, a plus sign for a space, and any other character
  for its own bytes. It leaves open which two characters are an escape. Two hexadecimal digits are
  one; the decoder also takes a plus sign and one digit.

  Main statement: a text in which no percent sign stands before a plus sign and a digit is decoded
  exactly if each of its percent signs comes with two hexadecimal digits and the bytes it stands for
  are valid UTF-8, and is refused otherwise. What the encoder writes is such a text, and stands for
  the bytes that were encoded.
-/

import Mathlib.Data.List.Infix
import Sluice.Proofs.Text.Utf8

namespace Sluice.Network

variable {place : Nat} {c d e : Char} {cs : List Char} {a b : UInt8} {bs rest : List UInt8}

-- ============================================================================
-- Escapes
-- ============================================================================

/-- The byte of two hexadecimal digits. -/
def hexByte? (d e : Char) : Option UInt8 :=
  match Text.hexValue? d, Text.hexValue? e with
  | some x, some y => some (UInt8.ofNat (16 * x + y))
  | _, _ => none

/-- The byte that the decoder reads off the two characters behind a percent sign. -/
def escapeChar? (d e : Char) : Option UInt8 :=
  (Text.unsigned? Text.hexValue? 16 [d, e]).map UInt8.ofNat

/-- Hexadecimal digits are ASCII characters. -/
theorem le_of_hexValue? {x : Nat} (h : Text.hexValue? c = some x) : c.toNat ≤ 0x66 := by
  simp only [Text.hexValue?, Text.isDigit, Bool.and_eq_true, decide_eq_true_eq] at h
  split at h
  · omega
  · split at h
    · omega
    · split at h
      · omega
      · cases h

theorem escapeChar?_plus (e : Char) :
    escapeChar? '+' e = (Text.hexValue? e).map UInt8.ofNat := by
  simp only [escapeChar?, Text.unsigned?, Text.digitsValue?, List.isEmpty_cons, List.foldl_cons,
    List.foldl_nil, Option.bind_some, Bool.false_eq_true, if_false, Option.map_map]
  congr 1
  funext n
  simp

/-- Without a sign an escape is two hexadecimal digits. -/
theorem escapeChar?_of_ne (h : d ≠ '+') (e : Char) : escapeChar? d e = hexByte? d e := by
  have hunsigned : Text.unsigned? Text.hexValue? 16 [d, e] =
      Text.digitsValue? Text.hexValue? 16 [d, e] := by
    unfold Text.unsigned?
    split
    · next heq => exact absurd (List.cons.inj heq).1 h
    · rfl
  simp only [escapeChar?, hunsigned, hexByte?, Text.digitsValue?, List.isEmpty_cons,
    List.foldl_cons, List.foldl_nil, Option.bind_some, Bool.false_eq_true, if_false]
  cases Text.hexValue? d with
  | none => rfl
  | some x => cases Text.hexValue? e <;> simp

/-- Both characters of an escape are ASCII. -/
theorem ascii_of_escapeChar? (h : escapeChar? d e = some b) : d.toNat < 0x80 ∧ e.toNat < 0x80 := by
  by_cases hplus : d = '+'
  · subst hplus
    rw [escapeChar?_plus] at h
    obtain ⟨y, hy, -⟩ := Option.map_eq_some_iff.1 h
    exact ⟨by decide, Nat.lt_of_le_of_lt (le_of_hexValue? hy) (by decide)⟩
  · rw [escapeChar?_of_ne hplus, hexByte?] at h
    split at h
    · next hx hy =>
      exact ⟨Nat.lt_of_le_of_lt (le_of_hexValue? hx) (by decide),
        Nat.lt_of_le_of_lt (le_of_hexValue? hy) (by decide)⟩
    · cases h

/-- Two hexadecimal digits are read as their byte: neither of them is a sign. -/
theorem escapeChar?_of_hexByte? (h : hexByte? d e = some b) : escapeChar? d e = some b := by
  have hplus : d ≠ '+' := by
    rintro rfl
    cases h
  rw [escapeChar?_of_ne hplus, h]

-- ============================================================================
-- What a text stands for
-- ============================================================================

/-- The bytes that a text stands for, with the given escapes. -/
inductive Stands (escape? : Char → Char → Option UInt8) : List Char → List UInt8 → Prop
  | nil : Stands escape? [] []
  | escape {d e : Char} {b : UInt8} {cs : List Char} {bs : List UInt8} :
      escape? d e = some b → Stands escape? cs bs → Stands escape? ('%' :: d :: e :: cs) (b :: bs)
  | space {cs : List Char} {bs : List UInt8} :
      Stands escape? cs bs → Stands escape? ('+' :: cs) (0x20 :: bs)
  | char {c : Char} {cs : List Char} {bs : List UInt8} :
      c ≠ '%' → c ≠ '+' → Stands escape? cs bs →
        Stands escape? (c :: cs) (String.utf8EncodeChar c ++ bs)

/-- More escapes, the same bytes. -/
theorem Stands.mono {escape? more? : Char → Char → Option UInt8} (h : Stands escape? cs bs)
    (hmore : ∀ {d e b}, escape? d e = some b → more? d e = some b) : Stands more? cs bs := by
  induction h with
  | nil => exact .nil
  | escape hescape _ ih => exact .escape (hmore hescape) ih
  | space _ ih => exact .space ih
  | char hpercent hplus _ ih => exact .char hpercent hplus ih

/-- A text without an escape of a plus sign and a digit. -/
def Unsigned (cs : List Char) : Prop :=
  ∀ e, (Text.hexValue? e).isSome = true → ¬ ['%', '+', e] <:+: cs

theorem Unsigned.of_append {front back : List Char} (h : Unsigned (front ++ back)) :
    Unsigned back := by
  intro e he hin
  exact h e he (hin.trans (List.suffix_append front back).isInfix)

/-- Where no sign stands in an escape, all escapes are two hexadecimal digits. -/
theorem Stands.unsigned (h : Stands escapeChar? cs bs) (hsign : Unsigned cs) :
    Stands hexByte? cs bs := by
  induction h with
  | nil => exact .nil
  | @escape d e b cs bs hescape _ ih =>
    have hplus : d ≠ '+' := by
      rintro rfl
      rw [escapeChar?_plus] at hescape
      obtain ⟨x, hx, -⟩ := Option.map_eq_some_iff.1 hescape
      exact hsign e (by rw [hx]; rfl) ⟨[], cs, rfl⟩
    have hback : Unsigned (['%', d, e] ++ cs) := hsign
    exact .escape (escapeChar?_of_ne hplus e ▸ hescape) (ih hback.of_append)
  | @space cs bs _ ih =>
    have hback : Unsigned (['+'] ++ cs) := hsign
    exact .space (ih hback.of_append)
  | @char c cs bs hpercent hplus _ ih =>
    have hback : Unsigned ([c] ++ cs) := hsign
    exact .char hpercent hplus (ih hback.of_append)

-- ============================================================================
-- Decoding
-- ============================================================================

/-- A byte other than a percent sign is copied, but for a plus sign. -/
theorem decodeBytes_cons (h : b ≠ 0x25) (place : Nat) (rest : List UInt8) :
    decodeBytes place (b :: rest) =
      (decodeBytes (place + 1) rest).map ((if b = 0x2b then 0x20 else b) :: ·) := by
  match rest with
  | [] => simp only [decodeBytes, h, if_false, Except.map]
  | [d] =>
    simp only [decodeBytes, h, if_false]
    by_cases hd : d = 0x25
    · rw [if_pos hd]
      rfl
    · rw [if_neg hd]
      rfl
  | d :: e :: rest =>
    rw [decodeBytes, if_neg h]
    cases decodeBytes (place + 1) (d :: e :: rest) <;> rfl

theorem decodeBytes_escape {byte : UInt8} (h : escapeByte? a b = some byte) (place : Nat)
    (rest : List UInt8) :
    decodeBytes place (0x25 :: a :: b :: rest) =
      (decodeBytes (place + 3) rest).map (byte :: ·) := by
  rw [decodeBytes, if_pos rfl, h]
  cases decodeBytes (place + 3) rest <;> rfl

theorem exists_of_map {α β : Type} {f : α → β} {decoded : Except Nat α} {result : β}
    (h : decoded.map f = .ok result) : ∃ a, decoded = .ok a ∧ f a = result := by
  cases decoded with
  | error bad => cases h
  | ok a => exact ⟨a, rfl, Except.ok.inj h⟩

/-- A percent sign is decoded only with an escape behind it. -/
theorem exists_escape (h : decodeBytes place (0x25 :: rest) = .ok bs) :
    ∃ a b more byte decoded, rest = a :: b :: more ∧ escapeByte? a b = some byte ∧
      decodeBytes (place + 3) more = .ok decoded ∧ byte :: decoded = bs := by
  match rest with
  | [] | [_] => cases h
  | a :: b :: more =>
    cases hescape : escapeByte? a b with
    | none =>
      rw [decodeBytes, if_pos rfl, hescape] at h
      cases h
    | some byte =>
      rw [decodeBytes_escape hescape] at h
      obtain ⟨decoded, hdecoded, rfl⟩ := exists_of_map h
      exact ⟨a, b, more, byte, decoded, rfl, hescape, hdecoded, rfl⟩

/-- Bytes that are neither percent signs nor plus signs are copied. -/
theorem decodeBytes_append {front : List UInt8} (h : ∀ b ∈ front, b ≠ 0x25 ∧ b ≠ 0x2b)
    (place : Nat) (rest : List UInt8) :
    decodeBytes place (front ++ rest) =
      (decodeBytes (place + front.length) rest).map (front ++ ·) := by
  induction front generalizing place with
  | nil => cases hrest : decodeBytes place rest <;> simp [hrest, Except.map]
  | cons b front ih =>
    obtain ⟨⟨hpercent, hplus⟩, hfront⟩ := List.forall_mem_cons.1 h
    rw [List.cons_append, decodeBytes_cons hpercent, ih hfront, if_neg hplus, List.length_cons,
      Nat.add_assoc, Nat.add_comm 1]
    cases decodeBytes (place + (front.length + 1)) rest <;> rfl

/-- The bytes of a character are neither percent signs nor plus signs, if it is neither. -/
theorem not_mark_of_mem (hpercent : c ≠ '%') (hplus : c ≠ '+') :
    ∀ b ∈ String.utf8EncodeChar c, b ≠ 0x25 ∧ b ≠ 0x2b := by
  intro b hb
  rcases Nat.lt_or_ge c.toNat 0x80 with hlt | hge
  · have hne : ∀ d : Char, c ≠ d → c.toNat ≠ d.toNat := fun d hcd heq => hcd (Char.toNat_inj.1 heq)
    rw [Text.utf8EncodeChar_ascii hlt, List.mem_singleton] at hb
    have hbyte : b.toNat = c.toNat := by
      rw [hb, UInt8.toNat_ofNat', Nat.mod_eq_of_lt (by omega)]
    constructor
    · rintro rfl
      exact hne '%' hpercent hbyte.symm
    · rintro rfl
      exact hne '+' hplus hbyte.symm
  · have hle := Text.le_of_mem_utf8EncodeChar hge hb
    constructor <;> rintro rfl <;> exact absurd hle (by decide)

theorem escapeByte?_eq (a b : UInt8) :
    escapeByte? a b = escapeChar? (Char.ofNat a.toNat) (Char.ofNat b.toNat) := rfl

theorem toNat_charOfByte (a : UInt8) : (Char.ofNat a.toNat).toNat = a.toNat := by
  have hlt := a.toNat_lt
  have hvalid : a.toNat.isValidChar := .inl (by omega)
  rw [Char.ofNat, dif_pos hvalid]
  rfl

theorem charOfByte_ofNat (h : c.toNat < 0x80) : Char.ofNat (UInt8.ofNat c.toNat).toNat = c := by
  rw [UInt8.toNat_ofNat', Nat.mod_eq_of_lt (by omega), Char.ofNat_toNat]

/-- A text is decoded to the bytes that it stands for. -/
theorem Stands.decodeBytes_eq (h : Stands escapeChar? cs bs) (place : Nat) :
    decodeBytes place (Text.utf8 cs) = .ok bs := by
  induction h generalizing place with
  | nil => rfl
  | @escape d e b cs bs hescape _ ih =>
    obtain ⟨hd, he⟩ := ascii_of_escapeChar? hescape
    have hbytes : escapeByte? (UInt8.ofNat d.toNat) (UInt8.ofNat e.toNat) = some b := by
      rw [escapeByte?_eq, charOfByte_ofNat hd, charOfByte_ofNat he, hescape]
    rw [Text.utf8_cons_ascii (by decide), Text.utf8_cons_ascii hd, Text.utf8_cons_ascii he]
    refine (decodeBytes_escape hbytes place _).trans ?_
    rw [ih]
    rfl
  | @space cs bs _ ih =>
    rw [Text.utf8_cons_ascii (by decide), decodeBytes_cons (by decide), ih]
    rfl
  | @char c cs bs hpercent hplus _ ih =>
    rw [Text.utf8_cons, decodeBytes_append (not_mark_of_mem hpercent hplus), ih]
    rfl

/-- Only a text that stands for some bytes is decoded. -/
theorem stands_of_decodeBytes {place : Nat} {cs : List Char} {bs : List UInt8}
    (h : decodeBytes place (Text.utf8 cs) = .ok bs) : Stands escapeChar? cs bs := by
  match cs with
  | [] =>
    cases h
    exact .nil
  | c :: cs =>
    by_cases hpercent : c = '%'
    · subst hpercent
      rw [Text.utf8_cons_ascii (by decide)] at h
      obtain ⟨a, b, more, byte, decoded, hrest, hescape, hdecoded, rfl⟩ := exists_escape h
      rw [escapeByte?_eq] at hescape
      obtain ⟨ha, hb⟩ := ascii_of_escapeChar? hescape
      rw [toNat_charOfByte] at ha hb
      obtain ⟨cs', rfl, hcs'⟩ := Text.exists_of_utf8_eq_cons hrest ha
      obtain ⟨cs'', rfl, rfl⟩ := Text.exists_of_utf8_eq_cons hcs' hb
      exact .escape hescape (stands_of_decodeBytes hdecoded)
    · by_cases hplus : c = '+'
      · subst hplus
        rw [Text.utf8_cons_ascii (by decide), decodeBytes_cons (by decide)] at h
        obtain ⟨decoded, hdecoded, rfl⟩ := exists_of_map h
        exact .space (stands_of_decodeBytes hdecoded)
      · rw [Text.utf8_cons, decodeBytes_append (not_mark_of_mem hpercent hplus)] at h
        obtain ⟨decoded, hdecoded, rfl⟩ := exists_of_map h
        exact .char hpercent hplus (stands_of_decodeBytes hdecoded)
termination_by cs.length

-- ============================================================================
-- Texts
-- ============================================================================

/-- A text is decoded to the text that is made of the bytes it stands for. -/
theorem decode_eq_ok_iff {s t : String} :
    decode s = .ok t ↔ Stands escapeChar? s.toList (bytes t) := by
  rw [decode, bytes_eq s]
  constructor
  · intro h
    split at h
    · cases h
    · next decoded hdecoded =>
      split at h
      · next text htext =>
        cases h
        rw [fromUTF8?_eq_some_iff.1 htext]
        exact stands_of_decodeBytes hdecoded
      · cases h
  · intro h
    rw [h.decodeBytes_eq 0]
    simp only [fromUTF8?_eq_some_iff.2 rfl]

/-- A text that is not decoded is refused. -/
theorem decode_settles (s : String) :
    (∃ t, decode s = .ok t) ∨ ∃ message, decode s = Attempt.refuseDomain message := by
  unfold decode
  split
  · exact .inr ⟨_, rfl⟩
  · split
    · exact .inl ⟨_, rfl⟩
    · exact .inr ⟨_, rfl⟩

/-- Decoding takes percent-encoded text only. Where no percent sign stands before a plus sign and a
digit, a text is decoded exactly if every percent sign in it comes with two hexadecimal digits, and
the bytes it stands for are valid UTF-8; these are the bytes of the result. Any other text is
refused. -/
theorem decodes_percent_encoding {s : String} (h : Unsigned s.toList) :
    ((∃ t, decode s = .ok t) ↔
      ∃ bs, Stands hexByte? s.toList bs ∧ bs.toByteArray.IsValidUTF8) ∧
    (∀ t, decode s = .ok t → Stands hexByte? s.toList (bytes t)) ∧
    ((∃ t, decode s = .ok t) ∨ ∃ message, decode s = Attempt.refuseDomain message) := by
  have hstands : ∀ t, decode s = .ok t → Stands hexByte? s.toList (bytes t) := fun t ht =>
    (decode_eq_ok_iff.1 ht).unsigned h
  refine ⟨⟨?_, ?_⟩, hstands, decode_settles s⟩
  · rintro ⟨t, ht⟩
    exact ⟨bytes t, hstands t ht, isValidUTF8_iff.2 ⟨t, rfl⟩⟩
  · rintro ⟨bs, hbs, hvalid⟩
    obtain ⟨t, rfl⟩ := isValidUTF8_iff.1 hvalid
    exact ⟨t, decode_eq_ok_iff.2 (hbs.mono escapeChar?_of_hexByte?)⟩

/-- Two escapes for one character, with digits of either case, and a plus sign. -/
theorem decodes_percent_encoding_accented : ∃ t, decode "%C3%a9+" = .ok t := by
  have hchars : "%C3%a9+".toList = ['%', 'C', '3', '%', 'a', '9', '+'] := rfl
  have hsign : Unsigned "%C3%a9+".toList := by
    rw [hchars]
    intro e _ hin
    have hmarks : ['%', '+'] <:+: ['%', 'C', '3', '%', 'a', '9', '+'] :=
      (List.prefix_append ['%', '+'] [e]).isInfix.trans hin
    exact absurd hmarks (by decide)
  have hbytes : bytes "\u00e9 " = [0xc3, 0xa9, 0x20] := by
    rw [bytes_eq]
    rfl
  refine (decodes_percent_encoding hsign).1.2 ⟨[0xc3, 0xa9, 0x20], ?_, ?_⟩
  · rw [hchars]
    exact .escape rfl (.escape rfl (.space .nil))
  · exact isValidUTF8_iff.2 ⟨"\u00e9 ", hbytes⟩

/-- A plus sign and one digit are decoded as an escape, though they are not two digits. -/
theorem signed_escape_is_decoded :
    decode "%+f" = .ok "\x0f" ∧ ¬ ∃ bs, Stands hexByte? "%+f".toList bs := by
  have hchars : "%+f".toList = ['%', '+', 'f'] := rfl
  have hbytes : bytes "\x0f" = [0x0f] := by
    rw [bytes_eq]
    rfl
  constructor
  · rw [decode_eq_ok_iff, hchars, hbytes]
    exact .escape rfl .nil
  · rw [hchars]
    rintro ⟨bs, h⟩
    cases h with
    | escape hescape _ => cases hescape
    | char hpercent _ _ => exact hpercent rfl

end Sluice.Network
