/-
  Sluice.Json.Read

  Strict JSON text to a value. Literals take any reader; the one that is given here is a machine
  that takes one token at a time and keeps the collections that are still open on a stack. The
  last of two fields with one key wins, and a text that opens more than 127 collections inside
  each other is refused.
-/

import Sluice.Json.Token
import Sluice.Value

namespace Sluice.Json

/-- A reader of strict JSON text, which gives the value of a text or refuses it. -/
abbrev Reader := List Char → Option Value

/-- A collection that is still open. -/
inductive Frame where
  /-- An array with its elements so far, last first. -/
  | array (items : List Value)
  /-- An object with its fields so far, and the key whose value is being read. -/
  | object (fields : List (String × Value)) (key : String)

/-- What the reader waits for. -/
inductive State where
  /-- A value; an array that was just opened may close instead. -/
  | value (mayClose : Bool) (stack : List Frame)
  /-- A key; an object that was just opened may close instead. -/
  | key (mayClose : Bool) (fields : List (String × Value)) (stack : List Frame)
  /-- The colon after a key. -/
  | colon (fields : List (String × Value)) (key : String) (stack : List Frame)
  /-- A comma or the end of the innermost collection. -/
  | next (frame : Frame) (stack : List Frame)
  /-- Nothing more. -/
  | done (v : Value)

/-- Texts with this many collections open at once are refused. -/
def depthLimit : Nat := 128

/-- A value is complete: it belongs to the innermost open collection. -/
def place (v : Value) : List Frame → State
  | [] => .done v
  | .array items :: stack => .next (.array (v :: items)) stack
  | .object fields key :: stack => .next (.object (Record.set key v fields) key) stack

/-- Take one token. -/
def step (state : State) (token : Token) : Option State :=
  match state, token with
  | .value _ stack, .null => some (place .null stack)
  | .value _ stack, .bool b => some (place (.bool b) stack)
  | .value _ stack, .number x => some (place (.number x) stack)
  | .value _ stack, .text s => some (place (.text s) stack)
  | .value _ stack, .openArray =>
    if stack.length + 1 < depthLimit then some (.value true (.array [] :: stack)) else none
  | .value _ stack, .openObject =>
    if stack.length + 1 < depthLimit then some (.key true [] stack) else none
  | .value true (.array [] :: stack), .closeArray => some (place (.array []) stack)
  | .key _ fields stack, .text key => some (.colon fields key stack)
  | .key true fields stack, .closeObject => some (place (.object fields) stack)
  | .colon fields key stack, .colon => some (.value false (.object fields key :: stack))
  | .next (.array items) stack, .comma => some (.value false (.array items :: stack))
  | .next (.array items) stack, .closeArray => some (place (.array items.reverse) stack)
  | .next (.object fields _) stack, .comma => some (.key false fields stack)
  | .next (.object fields _) stack, .closeObject => some (place (.object fields) stack)
  | _, _ => none

/-- The value of a token list, if it is one value and nothing else. -/
def ofTokens? (tokens : List Token) : Option Value :=
  match tokens.foldlM step (.value false []) with
  | some (.done v) => some v
  | _ => none

/-- The value of a strict JSON text. -/
def readChars? : Reader :=
  fun cs => (tokens? cs).bind ofTokens?

end Sluice.Json
