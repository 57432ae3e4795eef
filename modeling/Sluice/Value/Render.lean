/-
  Sluice.Value.Render

  Values as text. `render` is what printing shows: text bare, collections with their parts
  nested. `renderNested` is the form inside a collection, where text stands between quotes.
  `json` is compact JSON, and `jsonImage` is the value that survives a pass through JSON:
  numbers that JSON cannot write become null, and a negative zero becomes zero.
-/

import Sluice.Value
import Sluice.Text.Quoted

namespace Sluice.Value

/-! ## Printing -/

mutual

/-- The text of a value as it is printed. -/
def render : Value → String
  | null => "null"
  | bool b => if b then "true" else "false"
  | number x => Number.rendered x
  | text s => s
  | array items => "[" ++ Text.join "," (renderItems items) ++ "]"
  | object fields => "\x7b" ++ Text.join "," (renderFields fields) ++ "\x7d"

/-- The text of a value inside a collection. -/
def renderNested : Value → String
  | null => "null"
  | bool b => if b then "true" else "false"
  | number x => Number.rendered x
  | text s => Text.quoted s
  | array items => "[" ++ Text.join "," (renderItems items) ++ "]"
  | object fields => "\x7b" ++ Text.join "," (renderFields fields) ++ "\x7d"

/-- The texts of the elements of an array. -/
def renderItems : List Value → List String
  | [] => []
  | v :: rest => renderNested v :: renderItems rest

/-- The texts of the fields of an object. -/
def renderFields : List (String × Value) → List String
  | [] => []
  | (key, v) :: rest => (Text.quoted key ++ ":" ++ renderNested v) :: renderFields rest

end

/-! ## JSON -/

/-- How one character appears in a JSON string. -/
def jsonChar (c : Char) : List Char :=
  match c with
  | '"' => ['\\', '"']
  | '\\' => ['\\', '\\']
  | '\n' => ['\\', 'n']
  | '\r' => ['\\', 'r']
  | '\t' => ['\\', 't']
  | c =>
    if c.toNat = 8 then ['\\', 'b']
    else if c.toNat = 12 then ['\\', 'f']
    else if c.toNat < 0x20 then ['\\', 'u'] ++ Text.padZeros 4 (Text.hexDigits c.toNat)
    else [c]

/-- A JSON string. -/
def jsonText (s : String) : String :=
  String.ofList ('"' :: s.toList.flatMap jsonChar ++ ['"'])

mutual

/-- Compact JSON of a value. -/
def json : Value → String
  | null => "null"
  | bool b => if b then "true" else "false"
  | number x => Number.json x
  | text s => jsonText s
  | array items => "[" ++ Text.join "," (jsonItems items) ++ "]"
  | object fields => "\x7b" ++ Text.join "," (jsonFields fields) ++ "\x7d"

/-- JSON of the elements of an array. -/
def jsonItems : List Value → List String
  | [] => []
  | v :: rest => json v :: jsonItems rest

/-- JSON of the fields of an object. -/
def jsonFields : List (String × Value) → List String
  | [] => []
  | (key, v) :: rest => (jsonText key ++ ":" ++ json v) :: jsonFields rest

end

/-- A number after a pass through JSON. -/
def jsonNumberImage (x : Number) : Value :=
  if !Number.isFinite x then .null
  else if Number.isZero x then .number (Number.zero false)
  else .number x

mutual

/-- A value after a pass through JSON. -/
def jsonImage : Value → Value
  | number x => jsonNumberImage x
  | array items => .array (jsonImageItems items)
  | object fields => .object (jsonImageFields fields)
  | v => v

/-- The elements of an array after a pass through JSON. -/
def jsonImageItems : List Value → List Value
  | [] => []
  | v :: rest => jsonImage v :: jsonImageItems rest

/-- The fields of an object after a pass through JSON. -/
def jsonImageFields : List (String × Value) → List (String × Value)
  | [] => []
  | (key, v) :: rest => (key, jsonImage v) :: jsonImageFields rest

end

end Sluice.Value
