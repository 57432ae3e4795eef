/-
  Sluice.Text.Cut

  Cutting text apart and putting it together again: trimming, lines, words, splitting at a
  character or at a text, first occurrence, replacement.

  Everything is defined on lists of characters; `String` versions wrap them. Joining undoes
  splitting: no operation here drops a character other than the separators it names.
-/

import Sluice.Text.Class

namespace Sluice.Text

/-- Put a character in front of the first piece. -/
def consHead (c : Char) : List (List Char) → List (List Char)
  | [] => [[c]]
  | piece :: pieces => (c :: piece) :: pieces

/-! ## Trimming -/

/-- Remove the characters of a class at the end. -/
def dropEndWhile (p : Char → Bool) (cs : List Char) : List Char :=
  (cs.reverse.dropWhile p).reverse

/-- Remove the characters of a class at both ends. -/
def trimWhile (p : Char → Bool) (cs : List Char) : List Char :=
  dropEndWhile p (cs.dropWhile p)

/-- Remove the blanks at both ends. -/
def trimChars (cs : List Char) : List Char :=
  trimWhile isBlank cs

/-- Remove the blanks at both ends. -/
def trim (s : String) : String :=
  String.ofList (trimChars s.toList)

/-! ## Splitting at a character -/

/-- The pieces between the occurrences of a character; there is always at least one. -/
def splitAtChar (sep : Char) : List Char → List (List Char)
  | [] => [[]]
  | c :: cs => if c = sep then [] :: splitAtChar sep cs else consHead c (splitAtChar sep cs)

/-- The two sides of the first occurrence of a character. -/
def splitOnce (sep : Char) : List Char → Option (List Char × List Char)
  | [] => none
  | c :: cs =>
    if c = sep then some ([], cs)
    else (splitOnce sep cs).map fun (before, after) => (c :: before, after)

/-- The maximal runs without a blank. -/
def words (cs : List Char) : List (List Char) :=
  (go cs).filter fun word => !word.isEmpty
where
  /-- The pieces between blanks, empty ones included. -/
  go : List Char → List (List Char)
    | [] => [[]]
    | c :: cs => if isBlank c then [] :: go cs else consHead c (go cs)

/-- The lines of a text: a line ends at a line feed, of which a carriage return directly
before it is part; text after the last line feed is a line of its own unless it is empty. -/
def lines (cs : List Char) : List (List Char) :=
  closeLines (splitAtChar '\n' cs)
where
  /-- A line without the carriage return that belongs to its end. -/
  stripReturn (line : List Char) : List Char :=
    if line.getLast? = some '\r' then line.dropLast else line
  /-- All pieces but the last were ended by a line feed. -/
  closeLines : List (List Char) → List (List Char)
    | [] => []
    | [rest] => if rest.isEmpty then [] else [rest]
    | line :: more => stripReturn line :: closeLines more

/-! ## Splitting at a text -/

/-- The pieces between the occurrences of a non-empty text, found from the left without
overlap; `skip` counts the characters of an occurrence still to be passed over. -/
def splitAtTextFrom (sep : List Char) (skip : Nat) : List Char → List (List Char)
  | [] => [[]]
  | c :: cs =>
    match skip with
    | n + 1 => splitAtTextFrom sep n cs
    | 0 =>
      if sep.isPrefixOf (c :: cs) then [] :: splitAtTextFrom sep (sep.length - 1) cs
      else consHead c (splitAtTextFrom sep 0 cs)

/-- The pieces between the occurrences of a non-empty text. -/
def splitAtText (sep cs : List Char) : List (List Char) :=
  splitAtTextFrom sep 0 cs

/-- Put pieces together with a text between neighbours. -/
def joinWith (sep : List Char) : List (List Char) → List Char
  | [] => []
  | [piece] => piece
  | piece :: pieces => piece ++ sep ++ joinWith sep pieces

/-- Replace each occurrence of a text, found from the left without overlap. The empty text
occurs before every character and at the end. -/
def replaceText (pattern replacement cs : List Char) : List Char :=
  if pattern.isEmpty then
    replacement ++ cs.flatMap fun c => c :: replacement
  else joinWith replacement (splitAtText pattern cs)

/-- Whether a text occurs in another one. -/
def occursIn (needle : List Char) : List Char → Bool
  | [] => needle.isEmpty
  | c :: cs => needle.isPrefixOf (c :: cs) || occursIn needle cs

/-! ## Joining strings -/

/-- Put strings together with a separator between neighbours. -/
def join (sep : String) (parts : List String) : String :=
  String.intercalate sep parts

end Sluice.Text
