/-
  Sluice.Value

  The values that flow through pipelines, live in pools and are handed to operators: null,
  booleans, doubles, text, arrays, and objects whose fields are kept in key order.

  Null, false, zero, NaN and everything empty are falsy; every other value is truthy.
-/

import Sluice.Number.Text
import Sluice.Record

namespace Sluice

/-- A dynamically typed value. -/
inductive Value where
  | null
  | bool (b : Bool)
  | number (x : Number)
  | text (s : String)
  | array (items : List Value)
  | object (fields : List (String × Value))
deriving Inhabited

namespace Value

/-- Name of a value's type, as diagnostics spell it. -/
def typeName : Value → String
  | null => "null"
  | bool _ => "bool"
  | number _ => "number"
  | text _ => "text"
  | array _ => "array"
  | object _ => "object"

/-- Whether conditions and branches take the value for true. -/
def isTruthy : Value → Bool
  | null => false
  | bool b => b
  | number x => !Number.isZero x && !Number.isNaN x
  | text s => !s.toList.isEmpty
  | array items => !items.isEmpty
  | object fields => !fields.isEmpty

/-- Number of elements of a collection, or of characters of a text. -/
def size? : Value → Option Nat
  | text s => some s.toList.length
  | array items => some items.length
  | object fields => some fields.length
  | _ => none

/-- A text or a collection without content. -/
def isEmpty (v : Value) : Bool :=
  v.size? == some 0

/-- Lenient numeric view: numbers, booleans, and text that reads as a number once trimmed. -/
def toNumber? : Value → Option Number
  | number x => some x
  | bool b => some (if b then 1.0 else 0.0)
  | text s => Number.readChars? (Text.trimChars s.toList)
  | _ => none

/-- One step of a field path: a key of an object, or an index of an array. -/
def child? (segment : String) : Value → Option Value
  | object fields => Record.get? segment fields
  | array items => (Number.readWord? segment).bind fun i => items[i]?
  | _ => none

/-- The value at the end of a field path; the empty path leads to the value itself. -/
def at? : List String → Value → Option Value
  | [], v => some v
  | segment :: path, v => (v.child? segment).bind (at? path)

/-! ## Equality -/

mutual

/-- Structural equality with numeric equality of numbers: NaN differs from itself, and the
two zeros are equal. -/
def same : Value → Value → Bool
  | null, null => true
  | bool a, bool b => a == b
  | number x, number y => Number.eq x y
  | text s, text t => s == t
  | array xs, array ys => sameItems xs ys
  | object xs, object ys => sameFields xs ys
  | _, _ => false

/-- Element by element equality of arrays. -/
def sameItems : List Value → List Value → Bool
  | [], [] => true
  | x :: xs, y :: ys => same x y && sameItems xs ys
  | _, _ => false

/-- Field by field equality of objects. -/
def sameFields : List (String × Value) → List (String × Value) → Bool
  | [], [] => true
  | (k, x) :: xs, (l, y) :: ys => k == l && same x y && sameFields xs ys
  | _, _ => false

end

/-! ## Nesting and order of keys -/

mutual

/-- Depth of collections: a scalar has none, a collection one more than its deepest part. -/
def depth : Value → Nat
  | array items => itemsDepth items + 1
  | object fields => fieldsDepth fields + 1
  | _ => 0

/-- Depth of the deepest element. -/
def itemsDepth : List Value → Nat
  | [] => 0
  | v :: rest => max (depth v) (itemsDepth rest)

/-- Depth of the deepest field. -/
def fieldsDepth : List (String × Value) → Nat
  | [] => 0
  | (_, v) :: rest => max (depth v) (fieldsDepth rest)

end

mutual

/-- Every object inside the value has its keys in strictly increasing order. All values that
this library builds have this form. -/
def Ordered : Value → Prop
  | array items => ItemsOrdered items
  | object fields => Record.Ordered fields ∧ FieldsOrdered fields
  | _ => True

/-- Every element is ordered. -/
def ItemsOrdered : List Value → Prop
  | [] => True
  | v :: rest => Ordered v ∧ ItemsOrdered rest

/-- Every field's content is ordered. -/
def FieldsOrdered : List (String × Value) → Prop
  | [] => True
  | (_, v) :: rest => Ordered v ∧ FieldsOrdered rest

end

end Value

end Sluice
