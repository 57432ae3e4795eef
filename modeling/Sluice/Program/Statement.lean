/-
  Sluice.Program.Statement

  What a logical line says, read off its text alone. Forms are tried in a fixed order:
  import, function, pool declaration, stream, continuation, branch, subscription. A line of
  none of these forms, or with a malformed rest, is a statement that reports its problem.
-/

import Sluice.Program.Graph

namespace Sluice

/-- What a logical line says. -/
inductive Statement where
  | importLibrary (library : String) (localName : Option String)
  | function (name : String)
  | pool (name initial : String)
  /-- A stream source with its literal and the segments after it. -/
  | stream (live : Bool) (literal : String) (segments : List (List Char))
  /-- More segments of the open pipeline, outside every branch. -/
  | continuation (segments : List (List Char))
  /-- A branch of the open pipeline, with its keyword as the first segment. -/
  | branch (segments : List (List Char))
  | subscription (pool : String) (segments : List (List Char))
  /-- A line of a keyword's form that cannot be read, or of no form. -/
  | malformed (problem : Problem)

namespace Statement

open Sluice.Source (splitPipes)
open Sluice.Segment (isIdentifier)

/-- What stands after a text that starts another one. -/
def after? (lead : String) (cs : List Char) : Option (List Char) :=
  if lead.toList.isPrefixOf cs then some (cs.drop lead.length) else none

/-- The trimmed text after a keyword that is followed by a blank. -/
def keywordRest? (keyword : String) (cs : List Char) : Option (List Char) :=
  match after? keyword cs with
  | some (c :: rest) => if Text.isBlank c then some (Text.trimChars (c :: rest)) else none
  | _ => none

/-- The line keywords, which would hide a pool of the same name. -/
def reserved : List (List Char) :=
  ["import".toList, "use".toList, "fn".toList, "let".toList]

/-- The sides of the first occurrence of a text of two characters. -/
def splitArrow? : List Char → Option (List Char × List Char)
  | '-' :: '>' :: rest => some ([], rest)
  | c :: rest => (splitArrow? rest).map fun (before, after) => (c :: before, after)
  | [] => none

/-- An import: a library, or a library with the name it is known by. -/
def ofImport (rest : List Char) : Statement :=
  let library := fun word : List Char =>
    String.ofList (Text.trimWhile (fun c => c == '"' || c == '\'' || c == ';') word)
  match Text.words rest with
  | [word] => .importLibrary (library word) none
  | [word, middle, name] =>
    if middle = "as".toList then .importLibrary (library word) (some (String.ofList name))
    else .malformed (.unreadableImport (String.ofList rest))
  | _ => .malformed (.unreadableImport (String.ofList rest))

/-- A function: its name ends at a bracket or a blank. -/
def ofFunction (rest : List Char) : Statement :=
  .function (String.ofList
    (rest.takeWhile fun c => !(c == '(' || c == '\x7b' || Text.isBlank c)))

/-- A pool declaration: a name, an equals sign, the pool marker and the initial literal, which
is null when it is missing. -/
def ofPool (rest : List Char) : Statement :=
  -- All defects of a declaration are reported alike.
  let malformed := Statement.malformed (.malformedPool (String.ofList rest))
  match Text.splitOnce '=' rest with
  | none => malformed
  | some (left, right) =>
    let name := Text.trimChars left
    match after? "<|>" (Text.trimChars right) with
    | none => malformed
    | some literal =>
      let initial := Text.trimChars literal
      if isIdentifier name && !reserved.contains name then
        .pool (String.ofList name)
          (if initial.isEmpty then "null" else String.ofList initial)
      else malformed

/-- A stream: its first segment is the literal. -/
def ofStream (live : Bool) (rest : List Char) : Statement :=
  match splitPipes rest with
  | [] => .stream live "" []
  | literal :: segments => .stream live (String.ofList literal) segments

/-- A subscription: the pool stands before the arrow, and something after it. -/
def ofSubscription (text left right : List Char) : Statement :=
  let pool := Text.trimChars left
  let pipeline := Text.trimChars right
  if !isIdentifier pool || pipeline.isEmpty then
    .malformed (.malformedSubscription (String.ofList text))
  else .subscription (String.ofList pool) (splitPipes pipeline)

/-- Whether the first segment of a line is a branch keyword. -/
def startsWithBranch (cs : List Char) : Bool :=
  match splitPipes cs with
  | first :: _ => (branchOfKeyword? first).isSome
  | [] => false

/-- A line that is neither a stream nor a continuation and starts with no keyword. -/
def ofPlain (cs : List Char) : Statement :=
  if startsWithBranch cs then .branch (splitPipes cs)
  else match splitArrow? cs with
    | some (left, right) => ofSubscription cs left right
    | none => .malformed (.unrecognisedLine (String.ofList cs))

/-- What a line says. -/
def ofChars (cs : List Char) : Statement :=
  match (keywordRest? "import" cs).or (keywordRest? "use" cs) with
  | some rest => ofImport rest
  | none =>
    match keywordRest? "fn" cs with
    | some rest => ofFunction rest
    | none =>
      match keywordRest? "let" cs with
      | some rest => ofPool rest
      | none =>
        -- No keyword: the first characters decide.
        match cs with
        | '~' :: '?' :: rest => ofStream true rest
        | '~' :: rest => ofStream false rest
        | '|' :: rest => .continuation (splitPipes rest)
        | cs => ofPlain cs

end Statement

end Sluice
