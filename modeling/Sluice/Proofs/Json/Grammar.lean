/-
  Sluice.Proofs.Json.Grammar

  The grammar of JSON text, in two layers: tokens with white space between them (`Lexical`), and
  the values that tokens derive (`Derives`), where the last of two fields with one key wins.

  A reader is not asked to take all of it. It conforms up to a limit if what it takes is nested no
  deeper than that, and is given its value. How numbers are rounded is left open, unless they are
  integers that any reader has exactly.
-/

import Sluice.Proofs.Number.Exact
import Sluice.Proofs.Source.Pieces

namespace Sluice.Json

open Source (StringBody)
open Text (isDigit digitsValue? hexValue?)

-- ============================================================================
-- Numerals
-- ============================================================================

/-- At least one digit, and nothing else. -/
def isDigits (cs : List Char) : Bool :=
  !cs.isEmpty && cs.all isDigit

/-- Digits of an exponent behind its sign, if it has one. -/
def isExponentDigits : List Char → Bool
  | '+' :: rest => isDigits rest
  | '-' :: rest => isDigits rest
  | rest => isDigits rest

/-- An exponent, or nothing. -/
def isExponent : List Char → Bool
  | [] => true
  | c :: rest => (c == 'e' || c == 'E') && isExponentDigits rest

/-- A fraction, or none, and an exponent. -/
def isFraction : List Char → Bool
  | '.' :: rest => !(rest.takeWhile isDigit).isEmpty && isExponent (rest.dropWhile isDigit)
  | rest => isExponent rest

/-- A numeral without its sign. A zero stands alone in front of the fraction. -/
def isMagnitude : List Char → Bool
  | [] => false
  | '0' :: rest => isFraction rest
  | c :: rest => isDigit c && isFraction (rest.dropWhile isDigit)

/-- Whether a word is a number of JSON. -/
def isNumeral : List Char → Bool
  | '-' :: cs => isMagnitude cs
  | cs => isMagnitude cs

theorem isWordChar_of_isNumeral {c : Char} {rest : List Char} (h : isNumeral (c :: rest) = true) :
    isWordChar c = true := by
  have hmagnitude : isMagnitude (c :: rest) = true → isWordChar c = true := by
    intro h
    unfold isMagnitude at h
    split at h
    · cases h
    · next hcons =>
      rw [(List.cons.inj hcons).1]
      rfl
    · next hcons =>
      obtain ⟨rfl, rfl⟩ := List.cons.inj hcons
      simp [isWordChar, (Bool.and_eq_true_iff.1 h).1]
  unfold isNumeral at h
  split at h
  · next hcons =>
    rw [(List.cons.inj hcons).1]
    rfl
  · exact hmagnitude h

/-- A number that a word may stand for: an integer below 10^15 stands for itself. -/
def Denotes (word : List Char) (x : Number) : Prop :=
  ∀ negative digits, word = Number.sign negative digits → Number.PlainDigits digits →
    x = integer negative (Nat.ofDigitChars 10 digits 0)

-- ============================================================================
-- Strings
-- ============================================================================

/-- The 16-bit unit of four hexadecimal digits. -/
def unit? (a b c d : Char) : Option Nat :=
  digitsValue? hexValue? 16 [a, b, c, d]

/-- What the content of a string stands for. A unit that is a surrogate comes in a pair. -/
inductive Content : List Char → List Char → Prop where
  | nil : Content [] []
  | char {c body content} : c ≠ '"' → c ≠ '\\' → 0x20 ≤ c.toNat → Content body content →
    Content (c :: body) (c :: content)
  | escape {e c body content} : shortEscape? e = some c → Content body content →
    Content ('\\' :: e :: body) (c :: content)
  | code {a b c d n body content} : unit? a b c d = some n → isSurrogate n = false →
    Content body content →
    Content ('\\' :: 'u' :: a :: b :: c :: d :: body) (Char.ofNat n :: content)
  | pair {a b c d high a' b' c' d' low body content} : unit? a b c d = some high →
    unit? a' b' c' d' = some low → 0xd800 ≤ high → high < 0xdc00 → 0xdc00 ≤ low →
    low < 0xe000 → Content body content →
    Content ('\\' :: 'u' :: a :: b :: c :: d :: '\\' :: 'u' :: a' :: b' :: c' :: d' :: body)
      (Char.ofNat (0x10000 + (high - 0xd800) * 0x400 + (low - 0xdc00)) :: content)

/-- A hexadecimal digit is neither a backslash nor a quote nor a sign, and is below sixteen. -/
theorem hexValue?_bounds {c : Char} {k : Nat} (h : hexValue? c = some k) :
    c ≠ '\\' ∧ c ≠ '"' ∧ c ≠ '+' ∧ k < 16 := by
  refine ⟨?_, ?_, ?_, ?_⟩
  · rintro rfl
    cases h
  · rintro rfl
    cases h
  · rintro rfl
    cases h
  · simp only [hexValue?, isDigit, Bool.and_eq_true, decide_eq_true_eq] at h
    split at h
    · cases h
      omega
    · split at h
      · cases h
        omega
      · split at h <;> cases h
        omega

/-- The digits of a unit are hexadecimal, and it has sixteen bits. -/
theorem unit?_bounds {a b c d : Char} {n : Nat} (h : unit? a b c d = some n) :
    (∀ x ∈ [a, b, c, d], x ≠ '\\' ∧ x ≠ '"' ∧ x ≠ '+') ∧ n < 0x10000 := by
  unfold unit? at h
  cases ha : hexValue? a with
  | none => simp [digitsValue?, ha] at h
  | some i =>
  cases hb : hexValue? b with
  | none => simp [digitsValue?, ha, hb] at h
  | some j =>
  cases hc : hexValue? c with
  | none => simp [digitsValue?, ha, hb, hc] at h
  | some k =>
  cases hd : hexValue? d with
  | none => simp [digitsValue?, ha, hb, hc, hd] at h
  | some l =>
    obtain ⟨ha₁, ha₂, ha₃, hi⟩ := hexValue?_bounds ha
    obtain ⟨hb₁, hb₂, hb₃, hj⟩ := hexValue?_bounds hb
    obtain ⟨hc₁, hc₂, hc₃, hk⟩ := hexValue?_bounds hc
    obtain ⟨hd₁, hd₂, hd₃, hl⟩ := hexValue?_bounds hd
    simp only [digitsValue?, ha, hb, hc, hd, List.isEmpty_cons, Bool.false_eq_true, if_false,
      List.foldl_cons, List.foldl_nil, Option.bind_some, Option.map_some, Option.some.injEq] at h
    refine ⟨?_, by omega⟩
    simp [*]

theorem stringBody_unit {a b c d : Char} {n : Nat} (h : unit? a b c d = some n)
    {body : List Char} (hbody : StringBody '"' body) :
    StringBody '"' ('\\' :: 'u' :: a :: b :: c :: d :: body) := by
  obtain ⟨hdigits, -⟩ := unit?_bounds h
  simp only [List.forall_mem_cons] at hdigits
  obtain ⟨ha, hb, hc, hd, -⟩ := hdigits
  exact .escape (.char ha.1 ha.2.1 (.char hb.1 hb.2.1 (.char hc.1 hc.2.1
    (.char hd.1 hd.2.1 hbody))))

/-- No quote stands in the content of a string unless it is escaped. -/
theorem Content.stringBody {body content : List Char} (h : Content body content) :
    StringBody '"' body := by
  induction h with
  | nil => exact .nil
  | char hquote hslash _ _ ih => exact .char hslash hquote ih
  | escape _ _ ih => exact .escape ih
  | code hunit _ _ ih => exact stringBody_unit hunit ih
  | pair hhigh hlow _ _ _ _ _ ih => exact stringBody_unit hhigh (stringBody_unit hlow ih)

-- ============================================================================
-- Tokens and values
-- ============================================================================

/-- The words that are tokens. -/
inductive Word : List Char → Token → Prop where
  | null : Word "null".toList .null
  | bool (b : Bool) : Word (if b then "true".toList else "false".toList) (.bool b)
  | number {word x} : isNumeral word = true → Denotes word x → Word word (.number x)

theorem not_word_nil {token : Token} : ¬ Word [] token := by
  generalize hnil : ([] : List Char) = word
  intro h
  cases h with
  | null => cases hnil
  | bool b => cases b <;> cases hnil
  | number hnumeral =>
    rw [← hnil] at hnumeral
    cases hnumeral

/-- A text has these tokens, with white space between them. A word goes as far as it can. -/
inductive Lexical : List Char → List Token → Prop where
  | nil : Lexical [] []
  | space {c text tokens} : isSpace c = true → Lexical text tokens → Lexical (c :: text) tokens
  | mark {c token text tokens} : punctuation? c = some token → Lexical text tokens →
    Lexical (c :: text) (token :: tokens)
  | word {word token text tokens} : Word word token → (∀ c ∈ word, isWordChar c = true) →
    (∀ c ∈ text.head?, isWordChar c = false) → Lexical text tokens →
    Lexical (word ++ text) (token :: tokens)
  | string {body content text tokens} : Content body content → Lexical text tokens →
    Lexical ('"' :: (body ++ '"' :: text)) (.text (String.ofList content) :: tokens)

/-- Punctuation is a token by itself. -/
theorem Lexical.exists_of_punctuation {c : Char} {token : Token}
    (hc : punctuation? c = some token) {text : List Char} {tokens : List Token}
    (h : Lexical (c :: text) tokens) : ∃ more, tokens = token :: more ∧ Lexical text more := by
  have hchar : isSpace c = false ∧ isWordChar c = false ∧ c ≠ '"' := by
    unfold punctuation? at hc
    split at hc <;> cases hc <;> exact ⟨rfl, rfl, by decide⟩
  generalize hall : c :: text = all at h
  cases h with
  | nil => cases hall
  | space hspace _ =>
    obtain ⟨rfl, rfl⟩ := List.cons.inj hall
    rw [hchar.1] at hspace
    cases hspace
  | mark hmark htext =>
    obtain ⟨rfl, rfl⟩ := List.cons.inj hall
    cases hmark.symm.trans hc
    exact ⟨_, rfl, htext⟩
  | @word word _ _ _ hword hchars =>
    cases word with
    | nil => exact absurd hword not_word_nil
    | cons d word =>
      obtain ⟨rfl, -⟩ := List.cons.inj hall
      rw [hchars c List.mem_cons_self] at hchar
      cases hchar.2.1
  | string => exact absurd (List.cons.inj hall).1 hchar.2.2

/-- Pieces with commas between them. -/
def separated : List (List Token) → List Token
  | [] => []
  | piece :: pieces => piece ++ pieces.flatMap (.comma :: ·)

/-- An element of a collection: its tokens, and the value that they derive. -/
structure Element where
  tokens : List Token
  value : Value

/-- A member of an object: an element with a key. -/
structure Member extends Element where
  key : String

/-- The tokens of a member. -/
def Member.piece (m : Member) : List Token :=
  .text m.key :: .colon :: m.tokens

/-- A member as an entry. -/
def Member.entry (m : Member) : String × Value :=
  (m.key, m.value)

/-- Tokens derive a value with collections nested at most `n` deep. -/
inductive Derives : Nat → List Token → Value → Prop where
  | null {n} : Derives n [.null] .null
  | bool {n} (b : Bool) : Derives n [.bool b] (.bool b)
  | number {n} (x : Number) : Derives n [.number x] (.number x)
  | text {n} (s : String) : Derives n [.text s] (.text s)
  | array {n} (elements : List Element) : (∀ e ∈ elements, Derives n e.tokens e.value) →
    Derives (n + 1) (.openArray :: (separated (elements.map Element.tokens) ++ [.closeArray]))
      (.array (elements.map Element.value))
  | object {n} (members : List Member) : (∀ m ∈ members, Derives n m.tokens m.value) →
    Derives (n + 1) (.openObject :: (separated (members.map Member.piece) ++ [.closeObject]))
      (.object (Record.ofEntries (members.map Member.entry)))

/-- An object starts with a key, if it has any field. -/
theorem Derives.key_of_openObject {n : Nat} {token : Token} {tokens : List Token} {v : Value}
    (h : Derives n (.openObject :: token :: tokens) v) :
    token = .closeObject ∨ ∃ key, token = .text key := by
  generalize hall : Token.openObject :: token :: tokens = all at h
  cases h with
  | object members _ =>
    have hinner := (List.cons.inj hall).2
    cases members with
    | nil => exact .inl (List.cons.inj hinner).1
    | cons m members => exact .inr ⟨m.key, (List.cons.inj hinner).1⟩
  | _ => cases hall

/-- What a reader takes is JSON text with collections nested at most `limit` deep, and the value
that it gives is that of the text. -/
def Reader.Conforms (json : Reader) (limit : Nat) : Prop :=
  ∀ text v, json text = some v → ∃ tokens, Lexical text tokens ∧ Derives limit tokens v

end Sluice.Json
