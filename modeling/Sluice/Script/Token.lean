/-
  Sluice.Script.Token

  Tokens of the script language, each with its line and its position on the line, counted
  from one.
-/

import Sluice.Number.Text

namespace Sluice.Script

/-- A place in a script. -/
structure Position where
  line : Nat := 1
  column : Nat := 1
deriving Repr, DecidableEq

/-- A place as messages show it. -/
def Position.render (p : Position) : String :=
  s!"(line {p.line}, position {p.column})"

/-- The place after a character. -/
def Position.next (p : Position) (c : Char) : Position :=
  if c = '\n' then ⟨p.line + 1, 1⟩ else ⟨p.line, p.column + 1⟩

/-- The place after some characters. -/
def Position.past (p : Position) (cs : List Char) : Position :=
  cs.foldl Position.next p

/-- A token: a word, a literal, or a symbol. -/
inductive Token where
  | word (name : String)
  | float (x : Number)
  | integer (n : Nat)
  | text (s : String)
  | char (c : Char)
  | symbol (s : String)
  | finish

/-- Why a script does not compile. -/
inductive CompileError where
  | incomplete (position : Position)
  | unexpected (position : Position)
deriving Repr, DecidableEq

/-- The wording of a compile error. -/
def CompileError.message : CompileError → String
  | incomplete p => "Script is incomplete " ++ p.render
  | unexpected p => "Syntax error " ++ p.render

/-- A token and where it starts. -/
abbrev Located := Token × Position

/-- A character that a name starts with. -/
def isWordStart (c : Char) : Bool :=
  Text.isAsciiLetter c || c == '_'

/-- A character of a name. -/
def isWordChar (c : Char) : Bool :=
  isWordStart c || Text.isDigit c

/-- The text of a number: digits, and a fraction if a digit follows the point. -/
def numberLexeme (cs : List Char) : List Char :=
  let whole := cs.takeWhile Text.isDigit
  match cs.dropWhile Text.isDigit with
  | '.' :: d :: rest =>
    if Text.isDigit d then whole ++ '.' :: (d :: rest).takeWhile Text.isDigit else whole
  | _ => whole

/-- The token of a number's text. -/
def numberToken (lexeme : List Char) : Token :=
  match Text.digitsValue? Text.digitValue? 10 lexeme with
  | some n => .integer n
  | none => .float ((Number.readChars? lexeme).getD 0.0)

/-- The lexeme at the start of a text that starts with no blank, and its token. -/
def lexeme? (cs : List Char) : Option (List Char × Token) :=
  match cs with
  | [] => none
  | c :: rest =>
    if isWordStart c then
      let word := cs.takeWhile isWordChar
      some (word, .word (String.ofList word))
    else if Text.isDigit c then
      let lexeme := numberLexeme cs
      some (lexeme, numberToken lexeme)
    else if c = '"' then
      let body := rest.takeWhile (· != '"')
      if body.length < rest.length then
        some (c :: body ++ ['"'], .text (String.ofList body)) else none
    else match cs with
      | '\'' :: q :: '\'' :: _ => some (['\'', q, '\''], .char q)
      | '=' :: '=' :: _ => some (['=', '='], .symbol "==")
      | '#' :: '\x7b' :: _ => some (['#', '\x7b'], .symbol "#\x7b")
      | _ =>
        if "()\x7b\x7d[],.;:*+%|".toList.contains c then some ([c], .symbol (String.ofList [c]))
        else none

/-- All tokens of a script, of which the text is read in at most `fuel` steps; the last token is
its end. -/
def tokens (fuel : Nat) (p : Position) (cs : List Char) : Except CompileError (List Located) :=
  match fuel, cs with
  | _, [] => .ok [(.finish, p)]
  | 0, _ => .error (.incomplete p)
  | fuel + 1, c :: rest =>
    if Text.isBlank c then tokens fuel (p.next c) rest
    else match lexeme? (c :: rest) with
      | none => .error (.unexpected p)
      | some (lexeme, token) =>
        match tokens fuel (p.past lexeme) ((c :: rest).drop lexeme.length) with
        | .ok more => .ok ((token, p) :: more)
        | .error e => .error e

end Sluice.Script
