/-
  Sluice.Literal

  Literals of stream sources, initial pool values and arguments.

  `read` never fails: it knows null, booleans, numbers, quoted strings and collections, and
  takes anything else for text. A collection is read by a reader of strict JSON if that takes it
  once single quotes are made double, and leniently otherwise: parts between top-level commas,
  keys up to the first top-level colon, bare words as text. Collections nested deeper than
  `maxDepth` keep their innermost part as text. `write` gives a text that reads back.
-/

import Sluice.Json.Read
import Sluice.Source.Split
import Sluice.Value.Render

namespace Sluice.Literal

open Sluice.Source (splitArgs splitKeyValue)

/-- Deepest nesting of collections that is read as structure. -/
def maxDepth : Nat := 128

/-! ## Quoted strings -/

/-- Whether a backslash takes the end of the text along, or the quote occurs unescaped. -/
def breaksQuote (quote : Char) : List Char → Bool
  | [] => false
  | ['\\'] => true
  | '\\' :: _ :: rest => breaksQuote quote rest
  | c :: rest => c == quote || breaksQuote quote rest

/-- The content of a text between two equal quotes that are its only unescaped ones. -/
def quotedContent? (cs : List Char) : Option (List Char) :=
  match cs with
  | [] => none
  | quote :: rest =>
    if Source.isQuote quote && rest.getLast? == some quote && !breaksQuote quote rest.dropLast
    then some rest.dropLast else none

/-- The character of a hexadecimal code; one plus sign may stand before the digits. -/
def codeChar? (hex : List Char) : Option Char :=
  match Text.unsigned? Text.hexValue? 16 hex with
  | some n => if n.isValidChar then some (Char.ofNat n) else none
  | none => none

/-- The character of a one-letter escape. -/
def shortEscape? (c : Char) : Option Char :=
  match c with
  | 'n' => some '\n'
  | 't' => some '\t'
  | 'r' => some '\r'
  | '\\' => some '\\'
  | '\'' => some '\''
  | '"' => some '"'
  | _ => none

/-- Replace the escapes of a string's content. Unknown escapes, and codes that are no
character, are kept as they stand. -/
def unescape (cs : List Char) : List Char :=
  match cs with
  | [] => []
  | ['\\'] => ['\\']
  | '\\' :: e :: rest =>
    if e = 'u' then
      -- Near the end fewer than four digits may be left; they are the code then.
      match codeChar? (rest.take 4) with
      | some c => c :: unescape (rest.drop 4)
      | none => '\\' :: 'u' :: rest.take 4 ++ unescape (rest.drop 4)
    else match shortEscape? e with
      | some c => c :: unescape rest
      | none => '\\' :: e :: unescape rest
  | c :: rest => c :: unescape rest
termination_by cs.length
decreasing_by
  all_goals simp only [List.length_cons, List.length_drop]
  all_goals omega

/-- Single-quoted strings made double-quoted: their quotes are replaced, the double quotes
inside them escaped, and their escaped single quotes freed of the backslash. `quote` is the
quote of the string being read. -/
def normalizeQuotes (quote : Option Char) : List Char → List Char
  | [] => []
  | [c] =>
    if quote = none then (if c = '\'' then ['"'] else [c])
    else if quote = some '\'' then
      if c = '"' then ['\\', '"'] else if c = '\'' then ['"'] else [c]
    else [c]
  | c :: d :: rest =>
    -- Outside strings.
    if quote = none then
      if c = '\'' then '"' :: normalizeQuotes (some '\'') (d :: rest)
      else if c = '"' then '"' :: normalizeQuotes (some '"') (d :: rest)
      else c :: normalizeQuotes none (d :: rest)
    -- Inside a single-quoted string.
    else if quote = some '\'' then
      if c = '\\' then
        if d = '\'' then '\'' :: normalizeQuotes quote rest
        else '\\' :: d :: normalizeQuotes quote rest
      else if c = '"' then '\\' :: '"' :: normalizeQuotes quote (d :: rest)
      else if c = '\'' then '"' :: normalizeQuotes none (d :: rest)
      else c :: normalizeQuotes quote (d :: rest)
    -- Inside a double-quoted string, which is kept as it stands.
    else if c = '\\' then '\\' :: d :: normalizeQuotes quote rest
    else if c = '"' then '"' :: normalizeQuotes none (d :: rest)
    else c :: normalizeQuotes quote (d :: rest)

/-! ## Scalars -/

/-- A finite number that starts with a digit, a sign or a point. -/
def number? (cs : List Char) : Option Number :=
  match cs with
  | [] => none
  | c :: _ =>
    if Text.isDigit c || c == '-' || c == '+' || c == '.' then
      (Number.readChars? cs).filter Number.isFinite
    else none

/-- Null, booleans, numbers and quoted strings. -/
def scalar? (text : List Char) : Option Value :=
  if text.isEmpty || text == "null".toList then some .null
  else if text == "true".toList then some (.bool true)
  else if text == "false".toList then some (.bool false)
  else match number? text with
    | some x => some (.number x)
    | none => (quotedContent? text).map fun content => .text (String.ofList (unescape content))

/-! ## Reading -/

/-- Whether a text stands between two brackets. -/
def isWrapped (opening closing : Char) (cs : List Char) : Bool :=
  decide (2 ≤ cs.length) && cs.head? == some opening && cs.getLast? == some closing

/-- The text between the first and the last character. -/
def inner (cs : List Char) : List Char :=
  cs.tail.dropLast

/-- A key's text: text stands for itself, any other value for its rendering. -/
def keyText : Value → String
  | .text s => s
  | v => v.render

/-- The inside of a bracketed text is shorter than the text. -/
theorem length_inner_lt {opening closing : Char} {cs : List Char}
    (h : isWrapped opening closing cs = true) : (inner cs).length < cs.length := by
  simp only [isWrapped, Bool.and_eq_true, decide_eq_true_eq] at h
  simp only [inner, List.length_dropLast, List.length_tail]
  omega

/-- Read a literal that stands `depth` collections deep. Keys are literals of their own, read
from depth zero. -/
def readAt (json : Json.Reader) (depth : Nat) (source : List Char) : Value :=
  let text := Text.trimChars source
  match scalar? text with
  | some v => v
  | none =>
    if isWrapped '[' ']' text then
      -- What is nested too deeply stays text.
      if maxDepth ≤ depth then .text (String.ofList text)
      else match strict? json depth text with
        | some v => v
        | none =>
          .array ((splitArgs (inner text)).attach.map fun item => readAt json (depth + 1) item.1)
    else if isWrapped '\x7b' '\x7d' text then
      if maxDepth ≤ depth then .text (String.ofList text)
      else match strict? json depth text with
        | some v => v
        | none =>
          .object (Record.ofEntries ((splitArgs (inner text)).attach.map fun entry =>
            match h : splitKeyValue entry.1 with
            | some (key, value) => (keyText (readAt json 0 key), readAt json (depth + 1) value)
            -- An entry without a colon is a key without a value.
            | none => (keyText (readAt json 0 entry.1), .null)))
    else .text (String.ofList text)
termination_by source.length
decreasing_by
  all_goals
    have hw : (inner text).length < text.length := length_inner_lt (by assumption)
    have ht : text.length ≤ source.length := Source.length_trimChars_le source
  · have hi := Source.length_le_of_mem_splitArgs item.2
    omega
  all_goals
    have hi := Source.length_le_of_mem_splitArgs entry.2
  · have hk := (Source.length_le_of_splitKeyValue h).1
    omega
  · have hv := (Source.length_le_of_splitKeyValue h).2
    omega
  · omega
where
  /-- The outermost collection of a literal is tried as strict JSON. -/
  strict? (json : Json.Reader) (depth : Nat) (text : List Char) : Option Value :=
    if depth = 0 then json (normalizeQuotes none text) else none

/-- The value of a literal. -/
def read (json : Json.Reader) (source : String) : Value :=
  readAt json 0 source.toList

/-! ## Writing -/

/-- How one character is written between quotes. -/
def writtenChar (c : Char) : List Char :=
  match c with
  | '"' => ['\\', '"']
  | '\\' => ['\\', '\\']
  | '\n' => ['\\', 'n']
  | '\t' => ['\\', 't']
  | '\r' => ['\\', 'r']
  | c =>
    if Text.isControl c then ['\\', 'u'] ++ Text.padZeros 4 (Text.hexDigits c.toNat) else [c]

/-- A text between double quotes, to be read back. -/
def writeText (s : String) : String :=
  String.ofList ('"' :: s.toList.flatMap writtenChar ++ ['"'])

mutual

/-- A literal that reads back as the value. -/
def write : Value → String
  | .null => "null"
  | .bool b => if b then "true" else "false"
  | .number x => Number.rendered x
  | .text s => writeText s
  | .array items => "[" ++ Text.join "," (writeItems items) ++ "]"
  | .object fields => "\x7b" ++ Text.join "," (writeFields fields) ++ "\x7d"

/-- The literals of the elements of an array. -/
def writeItems : List Value → List String
  | [] => []
  | v :: rest => write v :: writeItems rest

/-- The fields of an object as literals. -/
def writeFields : List (String × Value) → List String
  | [] => []
  | (key, v) :: rest => (writeText key ++ ":" ++ write v) :: writeFields rest

end

end Sluice.Literal
