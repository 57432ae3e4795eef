/-
  Sluice.Toml.Write

  Writing keys and values of TOML. Of the spellings of a string the first that shows the text
  without escapes is taken: double quotes, single quotes, triple double quotes, triple single
  quotes. A text that needs escapes stands between double quotes, triple ones if it has several
  lines.
-/

import Sluice.Toml.Read

namespace Sluice.Toml

/-- The longest run of a character. -/
def longestRun (c : Char) (cs : List Char) : Nat :=
  (cs.foldl (fun (now, most) d =>
    if d = c then (now + 1, max most (now + 1)) else (0, most)) (0, 0)).2

/-- Whether a character can only be written by an escape: an ASCII control other than a tab or a
line break. -/
def needsEscape (c : Char) : Bool :=
  !isPlain c && c != '\n'

/-- The escape of a character. -/
def escapeOf (c : Char) : List Char :=
  if c = '\x08' then ['\\', 'b']
  else if c = '\t' then ['\\', 't']
  else if c = '\n' then ['\\', 'n']
  else if c = '\x0c' then ['\\', 'f']
  else if c = '\r' then ['\\', 'r']
  else if c = '"' then ['\\', '"']
  else if c = '\\' then ['\\', '\\']
  else '\\' :: 'u' :: Text.padZeros 4 ((Text.hexDigits c.toNat).map Text.asciiUpper)

/-- Whether a character between double quotes is escaped. -/
def isEscaped (c : Char) : Bool :=
  !isPlain c || c == '\t' || c == '"' || c == '\\'

/-- The inside of double quotes. -/
def basicText (cs : List Char) : List Char :=
  cs.flatMap fun c => if isEscaped c then escapeOf c else [c]

/-- The inside of triple double quotes: of three quotes in a row the third is escaped. `run` quotes
stand just before. -/
def tripleBasicText (run : Nat) : List Char → List Char
  | [] => []
  | c :: rest =>
    if c = '"' then
      -- Two quotes in a row cannot close the string yet.
      if run < 2 then c :: tripleBasicText (run + 1) rest else escapeOf c ++ tripleBasicText 0 rest
    else if c != '\n' && isEscaped c then escapeOf c ++ tripleBasicText 0 rest
    else c :: tripleBasicText 0 rest

/-- A text between double quotes. -/
def writeBasic (cs : List Char) : List Char :=
  '"' :: basicText cs ++ ['"']

/-- A text between triple double quotes; one of several lines starts on a line of its own. -/
def writeTripleBasic (cs : List Char) : List Char :=
  "\"\"\"".toList ++ (if cs.contains '\n' then ['\n'] else []) ++ tripleBasicText 0 cs
    ++ "\"\"\"".toList

/-- A text between triple single quotes; one of several lines starts on a line of its own. -/
def writeTripleLiteral (cs : List Char) : List Char :=
  "'''".toList ++ (if cs.contains '\n' then ['\n'] else []) ++ cs ++ "'''".toList

/-- A string. -/
def writeText (s : String) : String :=
  let cs := s.toList
  let controls := cs.any needsEscape
  let backslash := cs.contains '\\'
  let lines := cs.contains '\n'
  let doubles := longestRun '"' cs
  let singles := longestRun '\'' cs
  String.ofList <|
    if !controls && !backslash && !lines && doubles == 0 then writeBasic cs
    else if !controls && !lines && singles == 0 then '\'' :: cs ++ ['\'']
    else if !controls && !backslash && decide (doubles ≤ 2) then writeTripleBasic cs
    else if !controls && decide (singles ≤ 2) then writeTripleLiteral cs
    else if lines then writeTripleBasic cs
    else writeBasic cs

/-- A key: without quotes if it can be, and else with the first of the one-line spellings that
shows it without escapes. -/
def writeKey (s : String) : String :=
  let cs := s.toList
  let controls := cs.any fun c => needsEscape c || c == '\n'
  String.ofList <|
    if !cs.isEmpty && cs.all isBareKeyChar then cs
    else if !controls && !cs.contains '\\' && !cs.contains '"' then writeBasic cs
    else if !controls && !cs.contains '\'' then '\'' :: cs ++ ['\'']
    else writeBasic cs

/-- A float; whole numbers keep one decimal. -/
def writeFloat (x : Number) : String :=
  if Number.isNaN x then "nan" else Number.withFraction x

/-- A boolean. -/
def writeBool (b : Bool) : String :=
  if b then "true" else "false"

/-- An array of strings: two or more stand on lines of their own. -/
def writeTexts (items : List String) : String :=
  match items with
  | [] => "[]"
  | [only] => "[" ++ writeText only ++ "]"
  | _ => "[\n" ++ String.join (items.map fun s => "    " ++ writeText s ++ ",\n") ++ "]"

/-- A line of a key and a written value. -/
def writeEntry (key written : String) : String :=
  writeKey key ++ " = " ++ written ++ "\n"

end Sluice.Toml
