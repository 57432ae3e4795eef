/-
  Sluice.Proofs.Literal.Tokens

  What the tokens of JSON say about the text before its single quotes were made double.

  Each scalar token comes from a stretch of the text that spells its value, and between these
  stand blanks and punctuation only (`lexed_of_lexical`). The escapes of literals and of JSON are
  compared here, one at a time, and so are their numbers; both agree on plain text, whose escapes
  every reader knows and whose numbers are integers below 10^15.
-/

import Sluice.Proofs.Json.Grammar
import Sluice.Proofs.Literal.Spelling

namespace Sluice.Literal

open Source (StringBody Quoting isQuote)
open Text (Blank consHead)
open Json (Content Lexical Token isWordChar isSpace punctuation?)

-- ============================================================================
-- Plain text
-- ============================================================================

/-- The contents of the string literals of a text, escapes kept. -/
def strings : Quoting → List Char → List (List Char)
  | .outside, [] => []
  | _, [] => [[]]
  | .outside, c :: rest => strings (Quoting.outside.after c) rest
  | q, c :: rest =>
    match q.after c with
    | .outside => [] :: strings .outside rest
    | q => consHead c (strings q rest)

/-- The words of a text, which stand outside of its string literals; some may be empty. -/
def words : Quoting → List Char → List (List Char)
  | _, [] => [[]]
  | .outside, c :: rest =>
    if isWordChar c then consHead c (words .outside rest)
    else [] :: words (Quoting.outside.after c) rest
  | q, c :: rest => words (q.after c) rest

/-- A text whose strings have plain escapes only, and whose numbers are plain integers. -/
structure Plain (text : List Char) : Prop where
  escapes : ∀ body ∈ strings .outside text, plainEscapes body = true
  numbers : ∀ word ∈ words .outside text, Json.isNumeral word = true →
    Number.isPlainInteger word = true

theorem strings_string {quote : Char} {body : List Char} (hquote : isQuote quote = true)
    (hbody : StringBody quote body) (rest : List Char) :
    strings (.inside quote) (body ++ quote :: rest) = body :: strings .outside rest := by
  induction hbody with
  | nil => simp [strings, Quoting.after_quote hquote]
  | escape _ ih =>
    simp only [List.cons_append, strings, Quoting.after_slash, Quoting.after_escaped, ih]
    rfl
  | char hslash hne _ ih =>
    simp only [List.cons_append, strings, Quoting.after_char hslash hne, ih]
    rfl

theorem words_string {quote : Char} {body : List Char} (hquote : isQuote quote = true)
    (hbody : StringBody quote body) (rest : List Char) :
    words (.inside quote) (body ++ quote :: rest) = words .outside rest := by
  induction hbody with
  | nil => simp [words, Quoting.after_quote hquote]
  | escape _ ih => simpa [words, Quoting.after_slash, Quoting.after_escaped] using ih
  | char hslash hne _ ih => simpa [words, Quoting.after_char hslash hne] using ih

theorem strings_word {word : List Char} (hword : ∀ c ∈ word, isWordChar c = true)
    (rest : List Char) : strings .outside (word ++ rest) = strings .outside rest := by
  induction word with
  | nil => rfl
  | cons c word ih =>
    rw [List.forall_mem_cons] at hword
    rw [List.cons_append, strings, Quoting.outside_after (not_mark_of_isWordChar hword.1).2.2.1,
      ih hword.2]

theorem words_word {word : List Char} (hword : ∀ c ∈ word, isWordChar c = true)
    (rest : List Char) :
    words .outside (word ++ rest) = word.foldr consHead (words .outside rest) := by
  induction word with
  | nil => rfl
  | cons c word ih =>
    rw [List.forall_mem_cons] at hword
    rw [List.cons_append, words, if_pos hword.1, ih hword.2]
    rfl

/-- What is empty is no number. -/
theorem forall_mem_words_cons {ws : List (List Char)} :
    (∀ word ∈ [] :: ws, Json.isNumeral word = true → Number.isPlainInteger word = true) ↔
      ∀ word ∈ ws, Json.isNumeral word = true → Number.isPlainInteger word = true := by
  rw [List.forall_mem_cons]
  exact and_iff_right fun h => absurd h (by decide)

/-- Punctuation and blanks are plain. -/
theorem plain_cons_iff {c : Char} (hword : isWordChar c = false) (hquote : isQuote c = false)
    {rest : List Char} : Plain (c :: rest) ↔ Plain rest := by
  have hstrings : strings .outside (c :: rest) = strings .outside rest := by
    rw [strings, Quoting.outside_after hquote]
  have hwords : words .outside (c :: rest) = [] :: words .outside rest := by
    rw [words, hword, Quoting.outside_after hquote]
    rfl
  constructor
  · rintro ⟨hescapes, hnumbers⟩
    rw [hstrings] at hescapes
    rw [hwords, forall_mem_words_cons] at hnumbers
    exact ⟨hescapes, hnumbers⟩
  · rintro ⟨hescapes, hnumbers⟩
    refine ⟨?_, ?_⟩
    · rwa [hstrings]
    · rwa [hwords, forall_mem_words_cons]

/-- A string is plain if its escapes are. -/
theorem plain_string_iff {quote : Char} {body : List Char} (hquote : isQuote quote = true)
    (hbody : StringBody quote body) {rest : List Char} :
    Plain (quote :: (body ++ quote :: rest)) ↔ plainEscapes body = true ∧ Plain rest := by
  have hword : isWordChar quote = false := by
    rcases Source.eq_of_isQuote hquote with rfl | rfl <;> rfl
  have hstrings : strings .outside (quote :: (body ++ quote :: rest)) =
      body :: strings .outside rest := by
    rw [strings, Quoting.outside_after_quote hquote, strings_string hquote hbody]
  have hwords : words .outside (quote :: (body ++ quote :: rest)) = [] :: words .outside rest := by
    rw [words, hword, Quoting.outside_after_quote hquote, words_string hquote hbody]
    rfl
  constructor
  · rintro ⟨hescapes, hnumbers⟩
    rw [hstrings, List.forall_mem_cons] at hescapes
    rw [hwords, forall_mem_words_cons] at hnumbers
    exact ⟨hescapes.1, hescapes.2, hnumbers⟩
  · rintro ⟨hbodyPlain, hescapes, hnumbers⟩
    refine ⟨?_, ?_⟩
    · rw [hstrings, List.forall_mem_cons]
      exact ⟨hbodyPlain, hescapes⟩
    · rwa [hwords, forall_mem_words_cons]

/-- A text that no word goes on into. -/
def Bounded (rest : List Char) : Prop :=
  ∀ c, rest.head? = some c → isWordChar c = false

/-- A word is plain unless it is a number that is no plain integer. -/
theorem plain_word_iff {word : List Char} (hword : ∀ c ∈ word, isWordChar c = true)
    {rest : List Char} (hend : Bounded rest) :
    Plain (word ++ rest) ↔
      (Json.isNumeral word = true → Number.isPlainInteger word = true) ∧ Plain rest := by
  obtain ⟨ws, hrest⟩ : ∃ ws, words .outside rest = [] :: ws := by
    cases rest with
    | nil => exact ⟨[], rfl⟩
    | cons c rest =>
      refine ⟨words (Quoting.outside.after c) rest, ?_⟩
      rw [words, hend c rfl]
      rfl
  have hwords : words .outside (word ++ rest) = word :: ws := by
    rw [words_word hword, hrest, Text.consHead_foldr, List.append_nil]
  constructor
  · rintro ⟨hescapes, hnumbers⟩
    rw [strings_word hword] at hescapes
    rw [hwords, List.forall_mem_cons] at hnumbers
    exact ⟨hnumbers.1, hescapes, by rw [hrest, forall_mem_words_cons]; exact hnumbers.2⟩
  · rintro ⟨hplain, hescapes, hnumbers⟩
    rw [hrest, forall_mem_words_cons] at hnumbers
    refine ⟨?_, ?_⟩
    · rwa [strings_word hword]
    · rw [hwords, List.forall_mem_cons]
      exact ⟨hplain, hnumbers⟩

-- ============================================================================
-- Making quotes double
-- ============================================================================

theorem normalizeQuotes_nil (quote : Option Char) : normalizeQuotes quote [] = [] := rfl

theorem normalizeQuotes_outside {c : Char} (hc : isQuote c = false) (rest : List Char) :
    normalizeQuotes none (c :: rest) = c :: normalizeQuotes none rest := by
  simp only [isQuote, Bool.or_eq_false_iff, decide_eq_false_iff_not] at hc
  cases rest <;> simp [normalizeQuotes, hc]

theorem normalizeQuotes_open {quote : Char} (hquote : isQuote quote = true) (rest : List Char) :
    normalizeQuotes none (quote :: rest) = '"' :: normalizeQuotes (some quote) rest := by
  rcases Source.eq_of_isQuote hquote with rfl | rfl <;> cases rest <;> simp [normalizeQuotes]

theorem normalizeQuotes_close {quote : Char} (hquote : isQuote quote = true) (rest : List Char) :
    normalizeQuotes (some quote) (quote :: rest) = '"' :: normalizeQuotes none rest := by
  rcases Source.eq_of_isQuote hquote with rfl | rfl <;> cases rest <;> simp [normalizeQuotes]

/-- An escaped single quote is freed of its backslash between single quotes. -/
theorem normalizeQuotes_escape {quote : Char} (hquote : isQuote quote = true) (c : Char)
    (rest : List Char) :
    normalizeQuotes (some quote) ('\\' :: c :: rest) =
      (if quote = '\'' ∧ c = '\'' then ['\''] else ['\\', c]) ++
        normalizeQuotes (some quote) rest := by
  rcases Source.eq_of_isQuote hquote with rfl | rfl
  · simp [normalizeQuotes]
  · by_cases hc : c = '\'' <;> simp [normalizeQuotes, hc]

/-- A double quote between single quotes gets a backslash. -/
theorem normalizeQuotes_char {quote c : Char} (hquote : isQuote quote = true) (hslash : c ≠ '\\')
    (hne : c ≠ quote) (rest : List Char) :
    normalizeQuotes (some quote) (c :: rest) =
      (if c = '"' then ['\\', '"'] else [c]) ++ normalizeQuotes (some quote) rest := by
  rcases Source.eq_of_isQuote hquote with rfl | rfl
  · cases rest <;> simp [normalizeQuotes, hslash, hne]
  · by_cases hc : c = '"' <;> cases rest <;> simp [normalizeQuotes, hslash, hne, hc]

/-- Characters other than backslashes and quotes are kept. -/
theorem normalizeQuotes_append {quote : Char} (hquote : isQuote quote = true) {cs : List Char}
    (hcs : ∀ c ∈ cs, c ≠ '\\' ∧ c ≠ '"' ∧ c ≠ quote) (rest : List Char) :
    normalizeQuotes (some quote) (cs ++ rest) = cs ++ normalizeQuotes (some quote) rest := by
  induction cs with
  | nil => rfl
  | cons c cs ih =>
    rw [List.forall_mem_cons] at hcs
    obtain ⟨⟨hslash, hdouble, hne⟩, hcs⟩ := hcs
    rw [List.cons_append, normalizeQuotes_char hquote hslash hne, if_neg hdouble, ih hcs]
    rfl

/-- What a text starts with once its quotes are double: the character that it started with, or
the quote of a string. -/
theorem exists_of_normalizeQuotes {text image : List Char} {c : Char}
    (h : normalizeQuotes none text = c :: image) :
    (isQuote c = false ∧ ∃ rest, text = c :: rest ∧ normalizeQuotes none rest = image) ∨
    c = '"' ∧ ∃ quote rest, isQuote quote = true ∧ text = quote :: rest ∧
      normalizeQuotes (some quote) rest = image := by
  cases text with
  | nil => cases h
  | cons d rest =>
    by_cases hquote : isQuote d = true
    · rw [normalizeQuotes_open hquote] at h
      obtain ⟨rfl, himage⟩ := List.cons.inj h
      exact .inr ⟨rfl, d, rest, hquote, rfl, himage⟩
    · rw [Bool.not_eq_true] at hquote
      rw [normalizeQuotes_outside hquote] at h
      obtain ⟨rfl, himage⟩ := List.cons.inj h
      exact .inl ⟨hquote, rest, rfl, himage⟩

/-- The characters of a word are the same before and after. -/
theorem exists_of_normalizeQuotes_word {word text image : List Char}
    (hword : ∀ c ∈ word, isWordChar c = true) (h : normalizeQuotes none text = word ++ image) :
    ∃ rest, text = word ++ rest ∧ normalizeQuotes none rest = image := by
  induction word generalizing text with
  | nil => exact ⟨text, rfl, h⟩
  | cons c word ih =>
    rw [List.forall_mem_cons] at hword
    rcases exists_of_normalizeQuotes h with ⟨-, rest, rfl, hrest⟩ | ⟨rfl, -⟩
    · obtain ⟨behind, rfl, himage⟩ := ih hword.2 hrest
      exact ⟨behind, rfl, himage⟩
    · exact absurd hword.1 (by decide)

/-- A word ends where it ended before. -/
theorem bounded_of_normalizeQuotes {rest : List Char} (h : Bounded (normalizeQuotes none rest)) :
    Bounded rest := by
  intro c hc
  obtain ⟨behind, rfl⟩ := List.head?_eq_some_iff.1 hc
  by_cases hquote : isQuote c = true
  · rcases Source.eq_of_isQuote hquote with rfl | rfl <;> rfl
  · rw [normalizeQuotes_outside (Bool.eq_false_iff.2 hquote)] at h
    exact h c rfl

-- ============================================================================
-- The ends of strings
-- ============================================================================

/-- A character of a double-quoted string, as it stands or behind a backslash. -/
inductive Letter : List Char → Prop where
  | plain {c} : c ≠ '"' → c ≠ '\\' → Letter [c]
  | escaped {c} : Letter ['\\', c]

section Ends

variable {body after rest : List Char}

/-- A quote that is not escaped is the end. -/
theorem end_of_quote (hbody : StringBody '"' body) (h : '"' :: rest = body ++ '"' :: after) :
    body = [] ∧ rest = after := by
  cases hbody with
  | nil => exact ⟨rfl, (List.cons.inj h).2⟩
  | escape => exact absurd (List.cons.inj h).1 (by decide)
  | char _ hquote => exact absurd (List.cons.inj h).1.symm hquote

/-- Content goes on behind any other letter. -/
theorem Letter.end_after {image : List Char} (himage : Letter image) (hbody : StringBody '"' body)
    (h : image ++ rest = body ++ '"' :: after) :
    ∃ behind, body = image ++ behind ∧ StringBody '"' behind ∧ rest = behind ++ '"' :: after := by
  cases himage with
  | plain hquote hslash =>
    cases hbody with
    | nil => exact absurd (List.cons.inj h).1 hquote
    | escape => exact absurd (List.cons.inj h).1 hslash
    | char _ _ hbehind =>
      obtain ⟨rfl, hrest⟩ := List.cons.inj h
      exact ⟨_, rfl, hbehind, hrest⟩
  | escaped =>
    cases hbody with
    | nil => exact absurd (List.cons.inj h).1 (by decide)
    | escape hbehind =>
      obtain ⟨rfl, hrest⟩ := List.cons.inj (List.cons.inj h).2
      exact ⟨_, rfl, hbehind, hrest⟩
    | char hslash => exact absurd (List.cons.inj h).1.symm hslash

end Ends

/-- A string ends where it ended before its quotes were double. -/
theorem exists_stringBody {quote : Char} (hquote : isQuote quote = true) {body after : List Char}
    (hbody : StringBody '"' body) :
    ∀ text : List Char, normalizeQuotes (some quote) text = body ++ '"' :: after →
      ∃ content rest, StringBody quote content ∧ text = content ++ quote :: rest ∧
        normalizeQuotes (some quote) content = body ∧ normalizeQuotes none rest = after
  | [], h => by
    rw [normalizeQuotes_nil] at h
    simp at h
  | c :: text, h => by
    by_cases hc : c = quote
    · subst hc
      rw [normalizeQuotes_close hquote] at h
      obtain ⟨rfl, hafter⟩ := end_of_quote hbody h
      exact ⟨[], text, .nil, rfl, rfl, hafter⟩
    · by_cases hslash : c = '\\'
      · subst hslash
        match text with
        | [] =>
          have hkept : normalizeQuotes (some quote) ['\\'] = ['\\'] := by
            rcases Source.eq_of_isQuote hquote with rfl | rfl <;> rfl
          rw [hkept] at h
          cases hbody <;> simp at h
        | d :: text =>
          rw [normalizeQuotes_escape hquote] at h
          have hletter : Letter (if quote = '\'' ∧ d = '\'' then ['\''] else ['\\', d]) := by
            split
            · exact .plain (by decide) (by decide)
            · exact .escaped
          obtain ⟨behind, rfl, hbehind, htext⟩ := hletter.end_after hbody h
          obtain ⟨content, rest, hcontent, rfl, rfl, hrest⟩ :=
            exists_stringBody hquote hbehind text htext
          exact ⟨'\\' :: d :: content, rest, .escape hcontent, rfl,
            normalizeQuotes_escape hquote d content, hrest⟩
      · rw [normalizeQuotes_char hquote hslash hc] at h
        have hletter : Letter (if c = '"' then ['\\', '"'] else [c]) := by
          split
          · exact .escaped
          · next hdouble => exact .plain hdouble hslash
        obtain ⟨behind, rfl, hbehind, htext⟩ := hletter.end_after hbody h
        obtain ⟨content, rest, hcontent, rfl, rfl, hrest⟩ :=
          exists_stringBody hquote hbehind text htext
        exact ⟨c :: content, rest, .char hslash hc hcontent, rfl,
          normalizeQuotes_char hquote hslash hc content, hrest⟩

-- ============================================================================
-- The content of strings
-- ============================================================================

section Contents

variable {rest content : List Char}

/-- A character stands for itself. -/
theorem content_char {c : Char} (hslash : c ≠ '\\') (h : Content (c :: rest) content) :
    ∃ tail, Content rest tail ∧ content = c :: tail := by
  cases h with
  | char _ _ _ h => exact ⟨_, h, rfl⟩
  | escape => exact absurd rfl hslash
  | code => exact absurd rfl hslash
  | pair => exact absurd rfl hslash

/-- A short escape stands for its character. -/
theorem content_escape {e : Char} (hcode : e ≠ 'u') (h : Content ('\\' :: e :: rest) content) :
    ∃ c tail, Json.shortEscape? e = some c ∧ Content rest tail ∧ content = c :: tail := by
  cases h with
  | char _ hslash => exact absurd rfl hslash
  | escape hshort h => exact ⟨_, _, hshort, h, rfl⟩
  | code => exact absurd rfl hcode
  | pair => exact absurd rfl hcode

/-- A code that is no surrogate stands for its character, whatever follows it. -/
theorem content_code {a b c d : Char} {n : Nat} (hn : Json.unit? a b c d = some n)
    (hsurrogate : Json.isSurrogate n = false)
    (h : Content ('\\' :: 'u' :: a :: b :: c :: d :: rest) content) :
    ∃ tail, Content rest tail ∧ content = Char.ofNat n :: tail := by
  cases h with
  | char _ hslash => exact absurd rfl hslash
  | escape hshort => cases hshort
  | code hunit _ h =>
    cases hunit.symm.trans hn
    exact ⟨_, h, rfl⟩
  | pair hunit _ hhigh hlow =>
    cases hunit.symm.trans hn
    simp only [Json.isSurrogate, Bool.and_eq_false_iff, decide_eq_false_iff_not] at hsurrogate
    omega

end Contents

theorem unescape_char {c : Char} (hslash : c ≠ '\\') (rest : List Char) :
    unescape (c :: rest) = c :: unescape rest := by
  rw [unescape]
  · exact fun hc _ => hslash hc
  · exact fun _ _ hc _ => hslash hc

theorem unescape_short {e c : Char} (h : shortEscape? e = some c) (rest : List Char) :
    unescape ('\\' :: e :: rest) = c :: unescape rest := by
  have hcode : e ≠ 'u' := by
    rintro rfl
    cases h
  rw [unescape, if_neg hcode, h]

theorem unescape_code {a b c d : Char} {n : Nat} (hn : Json.unit? a b c d = some n)
    (hsurrogate : Json.isSurrogate n = false) (rest : List Char) :
    unescape ('\\' :: 'u' :: a :: b :: c :: d :: rest) = Char.ofNat n :: unescape rest := by
  obtain ⟨hdigits, hsmall⟩ := Json.unit?_bounds hn
  have hplus : a ≠ '+' := (hdigits a List.mem_cons_self).2.2
  have hvalid : n.isValidChar := by
    simp only [Json.isSurrogate, Bool.and_eq_false_iff, decide_eq_false_iff_not] at hsurrogate
    simp only [Nat.isValidChar]
    omega
  have hchar : codeChar? [a, b, c, d] = some (Char.ofNat n) := by
    have hunsigned : Text.unsigned? Text.hexValue? 16 [a, b, c, d] = some n := by
      rw [Text.unsigned?]
      · exact hn
      · exact fun _ h => hplus (List.cons.inj h).1
    rw [codeChar?, hunsigned]
    simp [hvalid]
  rw [unescape, if_pos rfl]
  simp [hchar]

/-- The two tables of short escapes agree where both have an entry. -/
theorem shortEscape?_agree {e c d : Char} (hc : shortEscape? e = some c)
    (hd : Json.shortEscape? e = some d) : c = d := by
  unfold shortEscape? at hc
  split at hc <;> cases hc <;> cases hd <;> rfl

/-- Making the quotes of a string double leaves the four digits of a code as they are. -/
theorem normalizeQuotes_code {quote : Char} (hquote : isQuote quote = true) {a b c d : Char}
    {n : Nat} (hn : Json.unit? a b c d = some n) {rest : List Char}
    (hbody : StringBody quote ('\\' :: 'u' :: a :: b :: c :: d :: rest)) :
    StringBody quote rest ∧
      normalizeQuotes (some quote) ('\\' :: 'u' :: a :: b :: c :: d :: rest) =
        '\\' :: 'u' :: a :: b :: c :: d :: normalizeQuotes (some quote) rest := by
  obtain ⟨hdigits, -⟩ := Json.unit?_bounds hn
  obtain ⟨hquotes, hrest⟩ := StringBody.of_append (fun x hx => (hdigits x hx).1)
    (hbody.of_escape : StringBody quote ([a, b, c, d] ++ rest))
  have hkept := normalizeQuotes_append hquote
    (fun x hx => ⟨(hdigits x hx).1, (hdigits x hx).2.1, hquotes x hx⟩) rest
  refine ⟨hrest, ?_⟩
  rw [normalizeQuotes_escape hquote, if_neg fun hfreed => absurd hfreed.2 (by decide)]
  exact congrArg (['\\', 'u'] ++ ·) hkept

/-- The two decoders of strings agree where the escapes are plain. -/
theorem unescape_eq {quote : Char} (hquote : isQuote quote = true) {body : List Char}
    (hbody : StringBody quote body) (hplain : plainEscapes body = true) {content : List Char}
    (h : Content (normalizeQuotes (some quote) body) content) :
    unescape body = content := by
  fun_induction plainEscapes body generalizing content with
  | case1 =>
    cases h
    rw [unescape]
  | case2 a b c d rest n hn ih =>
    rw [Bool.and_eq_true, Bool.not_eq_true'] at hplain
    obtain ⟨hsurrogate, hplain⟩ := hplain
    obtain ⟨hrest, hkept⟩ := normalizeQuotes_code hquote hn hbody
    rw [hkept] at h
    obtain ⟨tail, htail, rfl⟩ := content_code hn hsurrogate h
    rw [unescape_code hn hsurrogate, ih hrest hplain htail]
  | case3 a b c d rest hn => cases hplain
  | case4 e rest hnot ih =>
    rw [Bool.and_eq_true, Option.isSome_iff_exists] at hplain
    obtain ⟨⟨c, hc⟩, hplain⟩ := hplain
    have hrest : StringBody quote rest := hbody.of_escape
    rw [unescape_short hc]
    rw [normalizeQuotes_escape hquote] at h
    by_cases hfreed : quote = '\'' ∧ e = '\''
    · rw [if_pos hfreed, List.singleton_append] at h
      obtain ⟨tail, htail, rfl⟩ := content_char (by decide) h
      rw [hfreed.2] at hc
      cases hc
      rw [ih hrest hplain htail]
    · rw [if_neg hfreed, List.cons_append, List.singleton_append] at h
      have hcode : e ≠ 'u' := by
        rintro rfl
        cases hc
      obtain ⟨d, tail, hd, htail, rfl⟩ := content_escape hcode h
      rw [shortEscape?_agree hc hd, ih hrest hplain htail]
  | case5 c rest hcode hescape ih =>
    cases hbody with
    | escape => exact absurd rfl (hescape _ _ rfl)
    | char hslash hne hrest =>
      rw [unescape_char hslash]
      rw [normalizeQuotes_char hquote hslash hne] at h
      by_cases hdouble : c = '"'
      · subst hdouble
        rw [if_pos rfl, List.cons_append, List.singleton_append] at h
        obtain ⟨d, tail, hd, htail, rfl⟩ := content_escape (by decide) h
        cases hd
        rw [ih hrest hplain htail]
      · rw [if_neg hdouble, List.singleton_append] at h
        obtain ⟨tail, htail, rfl⟩ := content_char hslash h
        rw [ih hrest hplain htail]

-- ============================================================================
-- Tokens
-- ============================================================================

/-- The stretches of a text that are a token: one character for punctuation, and the spellings of
a value otherwise. -/
def Stretch : Token → List Char → Prop
  | .openArray, stretch => stretch = ['[']
  | .closeArray, stretch => stretch = [']']
  | .openObject, stretch => stretch = ['\x7b']
  | .closeObject, stretch => stretch = ['\x7d']
  | .comma, stretch => stretch = [',']
  | .colon, stretch => stretch = [':']
  | .null, stretch => SpellsScalar stretch .null
  | .bool b, stretch => SpellsScalar stretch (.bool b)
  | .number x, stretch => SpellsScalar stretch (.number x)
  | .text s, stretch => SpellsScalar stretch (.text s)

/-- A text and its tokens, with blanks between them. -/
inductive Lexed : List Char → List Token → Prop where
  | nil : Lexed [] []
  | blank {c text tokens} : Text.isBlank c = true → Lexed text tokens → Lexed (c :: text) tokens
  | token {stretch token text tokens} : Stretch token stretch → Lexed text tokens →
    Lexed (stretch ++ text) (token :: tokens)

theorem isBlank_of_isSpace {c : Char} (h : isSpace c = true) :
    Text.isBlank c = true ∧ isWordChar c = false ∧ isQuote c = false := by
  simp only [isSpace, Bool.or_eq_true, decide_eq_true_eq] at h
  rcases h with ((rfl | rfl) | rfl) | rfl <;> exact ⟨rfl, rfl, rfl⟩

theorem stretch_of_punctuation {c : Char} {token : Token} (h : punctuation? c = some token) :
    Stretch token [c] ∧ isWordChar c = false := by
  unfold punctuation? at h
  split at h <;> cases h <;> exact ⟨rfl, rfl⟩

/-- A plain integer has one number, in JSON and as a literal. -/
theorem number?_of_denotes {word : List Char} {x : Number}
    (hinteger : Number.isPlainInteger word = true) (hx : Json.Denotes word x) :
    number? word = some x := by
  obtain ⟨negative, digits, rfl, hdigits⟩ := Number.exists_of_isPlainInteger hinteger
  rw [Number.literal_number?_plain hdigits, hx negative digits rfl hdigits,
    Number.json_integer_eq]

/-- A word of plain text spells the value of its token. -/
theorem stretch_of_word {word : List Char} {token : Token}
    (hplain : Json.isNumeral word = true → Number.isPlainInteger word = true)
    (h : Json.Word word token) : Stretch token word := by
  cases h with
  | null => exact .null
  | bool b => exact .bool b
  | number hnumeral hx =>
    have hinteger := hplain hnumeral
    exact .number hinteger (number?_of_denotes hinteger hx)

/-- The tokens of a text whose quotes were made double are those that its stretches spell. -/
theorem lexed_of_lexical {text : List Char} (hplain : Plain text) {tokens : List Token}
    (h : Lexical (normalizeQuotes none text) tokens) : Lexed text tokens := by
  generalize himage : normalizeQuotes none text = image at h
  induction h generalizing text with
  | nil =>
    cases text with
    | nil => exact .nil
    | cons c rest =>
      by_cases hquote : isQuote c = true
      · rw [normalizeQuotes_open hquote] at himage
        cases himage
      · rw [normalizeQuotes_outside (Bool.eq_false_iff.2 hquote)] at himage
        cases himage
  | space hspace _ ih =>
    obtain ⟨hblank, hword, hquote⟩ := isBlank_of_isSpace hspace
    rcases exists_of_normalizeQuotes himage with ⟨-, rest, rfl, hrest⟩ | ⟨rfl, -⟩
    · exact .blank hblank (ih ((plain_cons_iff hword hquote).1 hplain) hrest)
    · cases hquote
  | mark hmark _ ih =>
    obtain ⟨hstretch, hword⟩ := stretch_of_punctuation hmark
    rcases exists_of_normalizeQuotes himage with ⟨hquote, rest, rfl, hrest⟩ | ⟨rfl, -⟩
    · exact .token hstretch (ih ((plain_cons_iff hword hquote).1 hplain) hrest)
    · cases hmark
  | word hword hchars hend _ ih =>
    obtain ⟨rest, rfl, hrest⟩ := exists_of_normalizeQuotes_word hchars himage
    have hbounded : Bounded rest := bounded_of_normalizeQuotes (by rw [hrest]; exact hend)
    obtain ⟨hnumber, hplainRest⟩ := (plain_word_iff hchars hbounded).1 hplain
    exact .token (stretch_of_word hnumber hword) (ih hplainRest hrest)
  | string hcontent _ ih =>
    rcases exists_of_normalizeQuotes himage with ⟨hquote, -⟩ | ⟨-, quote, rest, hquote, rfl, hrest⟩
    · cases hquote
    · obtain ⟨body, behind, hbody, rfl, rfl, hbehind⟩ :=
        exists_stringBody hquote hcontent.stringBody rest hrest
      obtain ⟨hescapes, hplainRest⟩ := (plain_string_iff hquote hbody).1 hplain
      have hspelled := SpellsScalar.string hquote hbody hescapes
      rw [unescape_eq hquote hbody hescapes hcontent] at hspelled
      have hjoin : quote :: (body ++ quote :: behind) = quote :: (body ++ [quote]) ++ behind := by
        simp
      rw [hjoin]
      exact .token hspelled (ih hplainRest hbehind)

end Sluice.Literal
