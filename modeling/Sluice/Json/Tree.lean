/-
  Sluice.Json.Tree

  JSON documents to be written. Counts are integers; a float always shows a fraction or an
  exponent, and what is no finite number is `null`.
-/

import Sluice.Record
import Sluice.Value.Render

namespace Sluice.Json

/-- A JSON document. -/
inductive Tree where
  | null
  | bool (b : Bool)
  | count (n : Nat)
  | float (x : Number)
  | text (s : String)
  | list (items : List Tree)
  | record (fields : List (String × Tree))

namespace Tree

/-- Null, or a document of something that is there. -/
def ofOption {α : Type} (f : α → Tree) : Option α → Tree
  | some a => f a
  | none => null

/-- A list of texts. -/
def texts (ss : List String) : Tree :=
  list (ss.map text)

/-- Items on lines of their own between brackets. -/
def block (opening closing : String) (indent : Nat) (items : List String) : String :=
  if items.isEmpty then opening ++ closing
  else
    let margin := String.ofList (List.replicate (2 * indent) ' ')
    opening ++ "\n" ++ Text.join ",\n" (items.map fun item => margin ++ "  " ++ item)
      ++ "\n" ++ margin ++ closing

mutual

/-- A document over several lines, two blanks a level. -/
def pretty (indent : Nat) : Tree → String
  | .null => "null"
  | .bool b => if b then "true" else "false"
  | .count n => s!"{n}"
  | .float x => if Number.isFinite x then Number.jsonDecimal x else "null"
  | .text s => Value.jsonText s
  | .list items => block "[" "]" indent (prettyItems (indent + 1) items)
  | .record fields => block "\x7b" "\x7d" indent (prettyFields (indent + 1) fields)

/-- The items of a list. -/
def prettyItems (indent : Nat) : List Tree → List String
  | [] => []
  | t :: rest => t.pretty indent :: prettyItems indent rest

/-- The fields of a record. -/
def prettyFields (indent : Nat) : List (String × Tree) → List String
  | [] => []
  | (key, t) :: rest =>
    (Value.jsonText key ++ ": " ++ t.pretty indent) :: prettyFields indent rest

end

end Tree

end Sluice.Json

namespace Sluice.Value

mutual

/-- The document of a value; every number is a float, and what is no finite number is null. -/
def toTree : Value → Json.Tree
  | null => .null
  | bool b => .bool b
  | number x => if Number.isFinite x then .float x else .null
  | text s => .text s
  | array items => .list (itemTrees items)
  | object fields => .record (fieldTrees fields)

/-- The documents of elements. -/
def itemTrees : List Value → List Json.Tree
  | [] => []
  | v :: rest => v.toTree :: itemTrees rest

/-- The documents of fields. -/
def fieldTrees : List (String × Value) → List (String × Json.Tree)
  | [] => []
  | (key, v) :: rest => (key, v.toTree) :: fieldTrees rest

end

end Sluice.Value
