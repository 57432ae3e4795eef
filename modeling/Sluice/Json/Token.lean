/-
  Sluice.Json.Token

  Tokens of strict JSON text: punctuation, the three words, numbers and strings. White space
  is only space, tab, carriage return and line feed. A string refuses control characters,
  unknown escapes, and a surrogate that is not half of a pair.
-/

import Sluice.Json.Number

namespace Sluice.Json

/-- A token of JSON text. -/
inductive Token where
  | openArray
  | closeArray
  | openObject
  | closeObject
  | comma
  | colon
  | null
  | bool (b : Bool)
  | number (x : Number)
  | text (s : String)

/-- White space between tokens. -/
def isSpace (c : Char) : Bool :=
  c = ' ' || c = '\t' || c = '\r' || c = '\n'

/-- The token of a punctuation character. -/
def punctuation? (c : Char) : Option Token :=
  match c with
  | '[' => some .openArray
  | ']' => some .closeArray
  | '\x7b' => some .openObject
  | '\x7d' => some .closeObject
  | ',' => some .comma
  | ':' => some .colon
  | _ => none

/-! ## Strings -/

/-- A part of a string's content: a character, or a 16-bit unit written as an escape. -/
inductive StringPart where
  | char (c : Char)
  | unit (n : Nat)

/-- The character of a one-letter escape. -/
def shortEscape? (c : Char) : Option Char :=
  match c with
  | '"' => some '"'
  | '\\' => some '\\'
  | '/' => some '/'
  | 'b' => some (Char.ofNat 8)
  | 'f' => some (Char.ofNat 12)
  | 'n' => some '\n'
  | 'r' => some '\r'
  | 't' => some '\t'
  | _ => none

/-- The parts of a string's content. -/
def parts? : List Char → Option (List StringPart)
  | [] => some []
  | '\\' :: 'u' :: a :: b :: c :: d :: rest =>
    match Text.digitsValue? Text.hexValue? 16 [a, b, c, d] with
    | some n => (parts? rest).map (.unit n :: ·)
    | none => none
  | '\\' :: e :: rest =>
    match shortEscape? e with
    | some c => (parts? rest).map (.char c :: ·)
    | none => none
  | c :: rest => if c = '\\' ∨ c.toNat < 0x20 then none else (parts? rest).map (.char c :: ·)

/-- Units below the surrogates and above them stand for themselves. -/
def isSurrogate (n : Nat) : Bool :=
  0xd800 ≤ n && n < 0xe000

/-- Units to characters: a high surrogate has to be followed by a low one. -/
def assemble? : List StringPart → Option (List Char)
  | [] => some []
  | .char c :: rest => (assemble? rest).map (c :: ·)
  | .unit high :: .unit low :: rest =>
    if isSurrogate high then
      -- Two surrogates make one character beyond the 16-bit ones.
      if high < 0xdc00 ∧ 0xdc00 ≤ low ∧ low < 0xe000 then
        (assemble? rest).map
          (Char.ofNat (0x10000 + (high - 0xd800) * 0x400 + (low - 0xdc00)) :: ·)
      else none
    else (assemble? (.unit low :: rest)).map (Char.ofNat high :: ·)
  | .unit n :: rest => if isSurrogate n then none else (assemble? rest).map (Char.ofNat n :: ·)

/-- The content of a string up to its closing quote, escapes kept, and what follows it. -/
def stringBody? : List Char → Option (List Char × List Char)
  | [] => none
  | '"' :: rest => some ([], rest)
  | '\\' :: c :: rest => (stringBody? rest).map fun (body, after) => ('\\' :: c :: body, after)
  | c :: rest => (stringBody? rest).map fun (body, after) => (c :: body, after)

/-- What follows a string is no longer than the text the string was read from. -/
theorem length_le_of_stringBody? {cs body after : List Char}
    (h : stringBody? cs = some (body, after)) : after.length ≤ cs.length := by
  fun_induction stringBody? cs generalizing body after with
  | case1 => simp at h
  | case2 rest => simp at h; simp [← h.2]
  | case3 c rest ih =>
    obtain ⟨⟨b, a⟩, hb, he⟩ := Option.map_eq_some_iff.1 h
    simp at he
    have := ih hb
    simp [← he.2]
    omega
  | case4 c rest _ _ ih =>
    obtain ⟨⟨b, a⟩, hb, he⟩ := Option.map_eq_some_iff.1 h
    simp at he
    have := ih hb
    simp [← he.2]
    omega

/-! ## Words and numbers -/

/-- A character of a word or a number. -/
def isWordChar (c : Char) : Bool :=
  Text.isAsciiLetter c || Text.isDigit c || c = '+' || c = '-' || c = '.'

/-- The token of a word or a number. -/
def scalar? (lexeme : List Char) : Option Token :=
  if lexeme = "null".toList then some .null
  else if lexeme = "true".toList then some (.bool true)
  else if lexeme = "false".toList then some (.bool false)
  else (number? lexeme).map .number

/-! ## Token lists -/

/-- All tokens of a text. -/
def tokens? (cs : List Char) : Option (List Token) :=
  match cs with
  | [] => some []
  | c :: rest =>
    if isSpace c then tokens? rest
    else match punctuation? c with
      | some token => (tokens? rest).map (token :: ·)
      | none =>
        if c = '"' then
          match h : stringBody? rest with
          | none => none
          | some (body, after) =>
            have : after.length ≤ rest.length := length_le_of_stringBody? h
            match (parts? body).bind assemble? with
            | none => none
            | some content => (tokens? after).map (.text (String.ofList content) :: ·)
        else
          have : (rest.dropWhile isWordChar).length ≤ rest.length :=
            (List.dropWhile_suffix isWordChar).length_le
          match scalar? (c :: rest.takeWhile isWordChar) with
          | none => none
          | some token => (tokens? (rest.dropWhile isWordChar)).map (token :: ·)
termination_by cs.length

end Sluice.Json
