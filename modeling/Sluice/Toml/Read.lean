/-
  Sluice.Toml.Read

  Reading a TOML document: lines of `key = value` and of headers, with comments. Arrays may
  spread over lines, inline tables may not. Values nest, and keys are dotted, less than eighty
  levels deep.
-/

import Sluice.Toml.Scalar

namespace Sluice.Toml

open Sluice.Text (isDigit isAsciiLetter)

/-! ## Between values -/

/-- A blank within a line. -/
def isSpace (c : Char) : Bool :=
  c == ' ' || c == '\t'

/-- Pass over blanks. -/
def skipSpaces (cs : List Char) : List Char :=
  cs.dropWhile isSpace

/-- The end of a line: blanks and a comment may stand before it. -/
def lineEnd? (cs : List Char) : Option (List Char) :=
  let rest :=
    match skipSpaces cs with
    | '#' :: comment => comment.dropWhile isPlain
    | rest => rest
  match rest with
  | [] => some []
  | '\n' :: after => some after
  | '\r' :: '\n' :: after => some after
  | _ => none

/-- Pass over blanks, line breaks and comments. A text that ends meanwhile is refused. -/
def skipFiller? (inComment : Bool) : List Char → Option (List Char)
  | [] => none
  | '\n' :: rest => skipFiller? false rest
  | '\r' :: '\n' :: rest => skipFiller? false rest
  | c :: rest =>
    if inComment then (if isPlain c then skipFiller? true rest else none)
    else if isSpace c then skipFiller? false rest
    else if c == '#' then skipFiller? true rest
    else some (c :: rest)

/-! ## Keys -/

/-- A character of a key without quotes. -/
def isBareKeyChar (c : Char) : Bool :=
  isDigit c || isAsciiLetter c || c == '-' || c == '_'

/-- A key that is not dotted. -/
def simpleKey? : Reader String
  | '"' :: rest => (basicBody rest).map fun (s, after) => (String.ofList s, after)
  | '\'' :: rest => (literalBody rest).map fun (s, after) => (String.ofList s, after)
  | cs =>
    let key := cs.takeWhile isBareKeyChar
    if key.isEmpty then none else some (String.ofList key, cs.dropWhile isBareKeyChar)

/-- The parts of a key, at most as many as there is fuel. -/
def keyParts? : (fuel : Nat) → Reader (List String)
  | 0, _ => none
  | fuel + 1, cs =>
    match simpleKey? (skipSpaces cs) with
    | none => none
    | some (key, rest) =>
      match skipSpaces rest with
      | '.' :: more => (keyParts? fuel more).map fun (path, after) => (key :: path, after)
      | after => some ([key], after)

/-- Levels at which a document is refused. -/
def levelLimit : Nat := 80

/-- A key, and the blanks around it. -/
def key? : Reader (List String) :=
  keyParts? (levelLimit - 1)

/-! ## Values -/

/-- The rest of an array. -/
def arrayItems? (item : Reader Node) : (fuel : Nat) → Reader (List Node)
  | 0, _ => none
  | fuel + 1, cs =>
    match skipFiller? false cs with
    | none => none
    | some (']' :: rest) => some ([], rest)
    | some inner =>
      match item inner with
      | none => none
      | some (v, rest) =>
        -- A comma may stand behind the last item.
        match skipFiller? false rest with
        | some (']' :: after) => some ([v], after)
        | some (',' :: more) =>
          (arrayItems? item fuel more).map fun (vs, after) => (v :: vs, after)
        | _ => none

/-- A key, an equals sign and a value. -/
def assignment? (item : Reader Node) : Reader (List String × Node) := fun cs =>
  match key? cs with
  | some (path, '=' :: rest) =>
    (item (skipSpaces rest)).map fun (v, after) => ((path, v), after)
  | _ => none

/-- The rest of an inline table that has entries. -/
def inlineEntries? (item : Reader Node) : (fuel : Nat) → Table → Reader Table
  | 0, _, _ => none
  | fuel + 1, table, cs =>
    match assignment? item cs with
    | none => none
    | some ((path, v), rest) =>
      match table.addAt? .inline path v with
      | none => none
      | some table =>
        -- Unlike an array, an inline table has no comma behind its last entry.
        match skipSpaces rest with
        | '}' :: after => some (table, after)
        | ',' :: more => inlineEntries? item fuel table more
        | _ => none

/-- An inline table after its opening brace. -/
def inlineTable? (item : Reader Node) : Reader Node := fun cs =>
  match skipSpaces cs with
  | '}' :: rest => some (.table .inline [], rest)
  | inner =>
    (inlineEntries? item inner.length { origin := .inline } inner).map fun (table, rest) =>
      (.table .inline table.entries, rest)

/-- A value that holds at most some levels of others. -/
def value? : (levels : Nat) → Reader Node
  | 0, cs => scalar? cs
  | levels + 1, cs =>
    match cs with
    | '[' :: rest =>
      (arrayItems? (value? levels) rest.length rest).map fun (items, after) => (.array items, after)
    | '\x7b' :: rest => inlineTable? (value? levels) rest
    | _ => scalar? cs

/-! ## Documents -/

/-- A document being read: its tables, and the path of the header that stands. -/
structure Draft where
  root : Table := { origin := .header }
  path : List String := []

namespace Draft

/-- Add an entry to the table of the header that stands. -/
def add? (d : Draft) (path : List String) (node : Node) : Option Draft :=
  (d.root.modify? .header (fun t => t.addAt? .dotted path node) d.path).map fun root =>
    { d with root }

/-- Go on with the table of another header. -/
def open? (d : Draft) (double : Bool) (path : List String) : Option Draft :=
  (d.root.openAt? double path).map fun root => { root, path }

end Draft

/-- One line that is not empty: a header, or an entry. -/
def statement? (d : Draft) : Reader Draft
  | '[' :: '[' :: rest =>
    match key? rest with
    | some (path, ']' :: ']' :: after) => (d.open? true path).map (·, after)
    | _ => none
  | '[' :: rest =>
    match key? rest with
    | some (path, ']' :: after) => (d.open? false path).map (·, after)
    | _ => none
  | cs =>
    match assignment? (value? (levelLimit - 1)) cs with
    | some ((path, v), after) => (d.add? path v).map (·, after)
    | none => none

/-- Read lines to the end. -/
def lines? : (fuel : Nat) → Draft → List Char → Option Draft
  | 0, _, _ => none
  | fuel + 1, d, cs =>
    match skipSpaces cs with
    | [] => some d
    | '\n' :: rest => lines? fuel d rest
    | '\r' :: '\n' :: rest => lines? fuel d rest
    | '#' :: rest =>
      match lineEnd? ('#' :: rest) with
      | some after => lines? fuel d after
      | none => none
    | line =>
      match statement? d line with
      | none => none
      | some (d, rest) =>
        match lineEnd? rest with
        | some after => lines? fuel d after
        | none => none

/-- Read a document; a byte order mark may stand in front. -/
def read? (source : String) : Option (Record Node) :=
  let cs :=
    match source.toList with
    | '\uFEFF' :: rest => rest
    | cs => cs
  (lines? (cs.length + 1) {} cs).map (·.root.entries)

end Sluice.Toml
