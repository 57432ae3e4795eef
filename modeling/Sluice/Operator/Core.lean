/-
  Sluice.Operator.Core

  The core library: arithmetic on numbers and numeric text, text, collections, conversion and
  logic, comparisons, the operators that take an operator's name, and the sinks. The sinks
  hand their input on; what they show or store is up to the run.
-/

import Sluice.Number.Whole
import Sluice.Operator
import Sluice.Value.Compare

namespace Sluice.Core

variable {σ : Type}

/-! ## Arithmetic -/

/-- An operator on the input and one argument, both numbers. -/
def binary (f : Number → Number → Number) (input : Value) (args : Arguments) : Attempt Value := do
  let x ← input.expectNumber
  let y ← args.number 0
  return .number (f x y)

/-- An operator on the input alone, a number. -/
def unary (f : Number → Number) (input : Value) (_ : Arguments) : Attempt Value := do
  return .number (f (← input.expectNumber))

/-- A division-like operator, which refuses a zero divisor. -/
def dividing (f : Number → Number → Number) (input : Value) (args : Arguments) :
    Attempt Value := do
  let x ← input.expectNumber
  let y ← args.number 0
  if Number.isZero y then Attempt.refuseDomain "division by zero"
  else return .number (f x y)

/-- The input to the power of the argument. -/
def power (input : Value) (args : Arguments) : Attempt Value := do
  let x ← input.expectNumber
  let y ← args.number 0
  finiteResult "power" (Number.pow x y)

/-- Round to a number of decimal places, at least none and at most fifteen. -/
def roundTo (x digits : Number) : Number :=
  let factor := Number.ofNat (Nat.pow 10 (Number.toNatUpTo 15 digits))
  Number.round (x * factor) / factor

/-- Round to decimal places, none by default. -/
def round (input : Value) (args : Arguments) : Attempt Value := do
  let x ← input.expectNumber
  return .number (roundTo x (← args.numberOr 0 0.0))

/-- The numbers an extremum is taken of: the elements of an array, or input and arguments. -/
def candidates (input : Value) (args : Arguments) : Attempt (List Number) :=
  match input with
  | .array _ => input.expectNumbers
  | _ => do
    let first ← input.expectNumber
    return first :: (← args.mapM Value.expectNumber)

/-- The first of the numbers that nothing later precedes in the wanted direction of the total
order. -/
def extremumOf (wanted : Ordering) : List Number → Option Number
  | [] => none
  | first :: rest =>
    some (rest.foldl (fun best x => if Number.totalCompare x best == wanted then x else best)
      first)

/-- The least or greatest number. -/
def extremum (wanted : Ordering) (input : Value) (args : Arguments) : Attempt Value := do
  match extremumOf wanted (← candidates input args) with
  | some x => return .number x
  | none => Attempt.refuseDomain "min/max of an empty array"

/-- Move a number into the interval between two bounds. Bounds of which the first is not known to
be the lower one are beyond recovery. -/
def clampWithin (lo hi x : Number) : Attempt Number :=
  if Number.le lo hi then .ok (Number.clampTo lo hi x) else .error (.halt .unorderedBounds)

/-- Move a number between two bounds. Bounds that are out of order are refused. -/
def clamp (input : Value) (args : Arguments) : Attempt Value := do
  let x ← input.expectNumber
  let lo ← args.number 0
  let hi ← args.number 1
  if Number.lt hi lo then
    Attempt.refuseDomain <|
      "clamp bounds out of order (" ++ Number.plain lo ++ " > " ++ Number.plain hi ++ ")"
  else return .number (← clampWithin lo hi x)

/-- The sum of numbers from the left; the sum of none is negative zero. -/
def total (xs : List Number) : Number :=
  xs.foldl (· + ·) (Number.zero true)

/-- The sum of an array; a number is its own sum. -/
def sum (input : Value) (_ : Arguments) : Attempt Value :=
  match input with
  | .number x => .ok (.number x)
  | _ => do return .number (total (← input.expectNumbers))

/-! ## Text -/

/-- An operator on a text. -/
def onText (f : String → Value) (input : Value) (_ : Arguments) : Attempt Value := do
  return f (← input.expectText)

/-- Put arguments behind the input: elements behind an array, text behind anything else. -/
def concat (input : Value) (args : Arguments) : Attempt Value :=
  match input with
  | .array items =>
    .ok (.array (items ++ args.flatMap fun arg =>
      match arg with
      | .array more => more
      | other => [other]))
  | other => .ok (.text (String.join (other.render :: args.map Value.render)))

/-- The parts of a text between separators, which are commas by default; an empty separator
gives the characters. -/
def splitText (input : Value) (args : Arguments) : Attempt Value := do
  let text := (← input.expectText).toList
  let separator := (args.textOr 0 ",").toList
  if separator.isEmpty then return .array (text.map fun c => .text c.toString)
  else return .array ((Text.splitAtText separator text).map fun p => .text (String.ofList p))

/-- Whether the input starts with the argument. -/
def startsWith (input : Value) (args : Arguments) : Attempt Value := do
  let text := (← input.expectText).toList
  return .bool ((← args.text 0).toList.isPrefixOf text)

/-- Whether the input ends with the argument. -/
def endsWith (input : Value) (args : Arguments) : Attempt Value := do
  let text := (← input.expectText).toList
  return .bool ((← args.text 0).toList.isSuffixOf text)

/-- Replace every occurrence of the first argument by the second. -/
def replace (input : Value) (args : Arguments) : Attempt Value := do
  let text := (← input.expectText).toList
  let pattern := (← args.text 0).toList
  let replacement := (← args.text 1).toList
  return .text (String.ofList (Text.replaceText pattern replacement text))

/-! ## Collections -/

/-- Number of elements or characters. -/
def length (input : Value) (_ : Arguments) : Attempt Value :=
  match input.size? with
  | some n => .ok (.number (Number.ofNat n))
  | none => Attempt.refuseType "text, array or object" input

/-- Last element or character first. -/
def reverse (input : Value) (_ : Arguments) : Attempt Value :=
  match input with
  | .array items => .ok (.array items.reverse)
  | .text s => .ok (.text (String.ofList s.toList.reverse))
  | other => Attempt.refuseType "array or text" other

/-- Place of a type in the order of mixed arrays. -/
def typeRank : Value → Nat
  | .null => 0
  | .bool _ => 1
  | .number _ => 2
  | .text _ => 3
  | .array _ => 4
  | .object _ => 5

/-- The order that sorting uses: by type, then numbers in the total order, text by code points,
false before true, and anything else by its rendering. -/
def sortOrder (a b : Value) : Ordering :=
  match a, b with
  | .number x, .number y => Number.totalCompare x y
  | .text s, .text t => compare s t
  | .bool p, .bool q => compare p q
  | _, _ => (compare (typeRank a) (typeRank b)).then (compare a.render b.render)

/-- Sort an array; equal elements keep their order. -/
def sort (input : Value) (_ : Arguments) : Attempt Value := do
  return .array ((← input.expectItems).mergeSort fun a b => sortOrder a b != .gt)

/-- Keep the first of equal elements. -/
def unique (input : Value) (_ : Arguments) : Attempt Value := do
  return .array ((← input.expectItems).foldl
    (fun kept v => if kept.any (Value.same v) then kept else kept ++ [v]) [])

/-- The first or last element or character, or null if there is none. -/
def edge (front : Bool) (input : Value) (_ : Arguments) : Attempt Value :=
  match input with
  | .array items => .ok ((if front then items.head? else items.getLast?).getD .null)
  | .text s =>
    match if front then s.toList.head? else s.toList.getLast? with
    | some c => .ok (.text c.toString)
    | none => .ok .null
  | other => Attempt.refuseType "array or text" other

/-- The first argument as a count. -/
def countArgument (args : Arguments) : Attempt Nat := do
  let n ← args.number 0
  if Number.lt n 0.0 || !Number.isWhole n then
    Attempt.refuseDomain ("expected a non-negative whole count, got " ++ Number.plain n)
  else return Number.toNatUpTo Number.maxWord n

/-- A number of elements or characters from the front, or all but those. -/
def slice (keepFront : Bool) (input : Value) (args : Arguments) : Attempt Value := do
  let n ← countArgument args
  match input with
  | .array items => return .array (if keepFront then items.take n else items.drop n)
  | .text s =>
    return .text (String.ofList (if keepFront then s.toList.take n else s.toList.drop n))
  | other => Attempt.refuseType "array or text" other

/-- The renderings of the elements, with a separator between them, a comma by default. -/
def join (input : Value) (args : Arguments) : Attempt Value := do
  return .text (Text.join (args.textOr 0 ",") ((← input.expectItems).map Value.render))

/-- Whether a text contains the argument's text, an array an equal element, or an object the
key. -/
def contains (input : Value) (args : Arguments) : Attempt Value := do
  let needle ← args.get 0
  match input with
  | .text s => return .bool (Text.occursIn needle.render.toList s.toList)
  | .array items => return .bool (items.any fun item => Value.looselyEqual item needle)
  | .object fields => return .bool (Record.contains needle.render fields)
  | other => Attempt.refuseType "text, array or object" other

/-- The keys of an object, in order. -/
def keys (input : Value) (_ : Arguments) : Attempt Value := do
  return .array ((← input.expectFields).map fun (key, _) => .text key)

/-- The contents of the fields of an object, in key order. -/
def contents (input : Value) (_ : Arguments) : Attempt Value := do
  return .array ((← input.expectFields).map fun (_, v) => v)

/-- The value at a path of keys and indices separated by points, or null. -/
def get (input : Value) (args : Arguments) : Attempt Value := do
  let path := (Text.splitAtChar '.' (← args.text 0).toList).map String.ofList
  return (input.at? path).getD .null

/-- Set a field of an object; null counts as an object without fields. -/
def set (input : Value) (args : Arguments) : Attempt Value := do
  let fields ← match input with
    | .null => pure []
    | other => other.expectFields
  let key ← args.text 0
  let v ← args.get 1
  return .object (Record.set key v fields)

/-! ## Conversion and logic -/

/-- The argument in place of null. -/
def default (input : Value) (args : Arguments) : Attempt Value :=
  match input with
  | .null => args.get 0
  | other => .ok other

/-- The lenient numeric view. -/
def toNumber (input : Value) (_ : Arguments) : Attempt Value :=
  match input.toNumber? with
  | some x => .ok (.number x)
  | none => Attempt.refuseType "number-like value" input

/-- A connective of truth values that looks at the argument only if the input leaves the
result open. -/
def connective (decided : Bool) (input : Value) (args : Arguments) : Attempt Value :=
  if input.isTruthy == decided then .ok (.bool decided)
  else do return .bool (← args.get 0).isTruthy

/-- A comparison of the input with the argument. -/
def comparison (op : Comparison) (input : Value) (args : Arguments) : Attempt Value := do
  return .bool (op.holds input (← args.get 0))

/-! ## Operators that take an operator's name -/

/-- The operator that the first argument names. -/
def operatorName (args : Arguments) : Attempt String :=
  match args with
  | [] => Attempt.refuse (.arity "at least 1" 0)
  | .text s :: _ =>
    if (Text.trimChars s.toList).isEmpty then Attempt.refuseType "operator name" (.text s)
    else .ok (Text.trim s)
  | other :: _ => Attempt.refuseType "operator name" other

/-- Call an operator on each element and collect the results. -/
def mapItems (name : String) (args : Arguments) (done : List Value) : List Value → Action σ
  | [] => .finish (.ok (.array done.reverse))
  | item :: rest => .call name item args fun
    | .ok v => mapItems name args (v :: done) rest
    | .error e => .finish (Attempt.refuse e)

/-- Call an operator on each element and keep those on which it is truthy. -/
def keepItems (name : String) (args : Arguments) (kept : List Value) : List Value → Action σ
  | [] => .finish (.ok (.array kept.reverse))
  | item :: rest => .call name item args fun
    | .ok v => keepItems name args (if v.isTruthy then item :: kept else kept) rest
    | .error e => .finish (Attempt.refuse e)

/-- Combine elements from the left by an operator that takes the next one as its argument. -/
def foldItems (name : String) (acc : Value) : List Value → Action σ
  | [] => .finish (.ok acc)
  | item :: rest => .call name acc [item] fun
    | .ok v => foldItems name v rest
    | .error e => .finish (Attempt.refuse e)

/-- Go on with a result, or end with the fault. -/
def andThen {α : Type} (attempt : Attempt α) (next : α → Action σ) : Action σ :=
  match attempt with
  | .ok a => next a
  | .error fault => .finish (.error fault)

/-- Apply the named operator to every element. -/
def mapWith : Body σ := fun input args =>
  andThen (operatorName args) fun name =>
    andThen input.expectItems fun items =>
      andThen args.rest fun more => mapItems name more [] items

/-- Keep the elements on which the named operator is truthy. -/
def filterWith : Body σ := fun input args =>
  andThen (operatorName args) fun name =>
    andThen input.expectItems fun items =>
      andThen args.rest fun more => keepItems name more [] items

/-- Combine the elements from the left by the named operator, from the first one on; a plus sign
sums. -/
def reduceWith : Body σ := fun input args =>
  andThen (operatorName args) fun name =>
    if name = "+" then
      .finish (do return .number (total (← input.expectNumbers)))
    else andThen input.expectItems fun
      | [] => .finish (.ok .null)
      | first :: rest => foldItems name first rest

/-- The value of a pool, or null with a warning. -/
def fromPool : Body σ := fun _ args =>
  andThen (args.text 0) fun name =>
    let pool := String.ofList (name.toList.dropWhile (· == '$'))
    .readPool pool fun
      | some v => .finish (.ok v)
      | none => .warn s!"from_pool: pool '{pool}' was never declared" (.finish (.ok .null))

/-! ## The library -/

/-- Hand the input on. -/
def identity (input : Value) (_ : Arguments) : Attempt Value :=
  .ok input

/-- The arithmetic operators. -/
def arithmetic : List (Entry σ) := [
  .pure "add" (.exactly 1) (binary (· + ·)),
  .pure "subtract" (.exactly 1) (binary (· - ·)),
  .pure "multiply" (.exactly 1) (binary (· * ·)),
  .pure "divide" (.exactly 1) (dividing (· / ·)),
  .pure "modulo" (.exactly 1) (dividing Number.remainder),
  .pure "power" (.exactly 1) power,
  .pure "negate" (.exactly 0) (unary fun x => -x),
  .pure "abs" (.exactly 0) (unary Number.abs),
  .pure "round" (.between 0 1) round,
  .pure "floor" (.exactly 0) (unary Number.floor),
  .pure "ceil" (.exactly 0) (unary Number.ceiling),
  .pure "min" .any (extremum .lt),
  .pure "max" .any (extremum .gt),
  .pure "clamp" (.exactly 2) clamp,
  .pure "sum" (.exactly 0) sum]

/-- The operators on text. -/
def textual : List (Entry σ) := [
  .pure "trim" (.exactly 0) (onText fun s => .text (Text.trim s)),
  .pure "to_upper" (.exactly 0) (onText fun s => .text (Text.toUpper s)),
  .pure "to_lower" (.exactly 0) (onText fun s => .text (Text.toLower s)),
  .pure "concat" .any concat,
  .pure "split_text" (.between 0 1) splitText,
  .pure "starts_with" (.exactly 1) startsWith,
  .pure "ends_with" (.exactly 1) endsWith,
  .pure "replace" (.exactly 2) replace]

/-- The operators on collections. -/
def collections : List (Entry σ) := [
  .pure "length" (.exactly 0) length,
  .pure "reverse" (.exactly 0) reverse,
  .pure "sort" (.exactly 0) sort,
  .pure "unique" (.exactly 0) unique,
  .pure "first" (.exactly 0) (edge true),
  .pure "last" (.exactly 0) (edge false),
  .pure "take" (.exactly 1) (slice true),
  .pure "skip" (.exactly 1) (slice false),
  .pure "join" (.between 0 1) join,
  .pure "contains" (.exactly 1) contains,
  .pure "keys" (.exactly 0) keys,
  .pure "values" (.exactly 0) contents,
  .pure "get" (.exactly 1) get,
  .pure "set" (.exactly 2) set]

/-- Conversion and logic. -/
def logical : List (Entry σ) := [
  .pure "default" (.exactly 1) default,
  .pure "to_string" (.exactly 0) fun input _ => .ok (.text input.render),
  .pure "to_number" (.exactly 0) toNumber,
  .pure "to_bool" (.exactly 0) fun input _ => .ok (.bool input.isTruthy),
  .pure "not" (.exactly 0) fun input _ => .ok (.bool !input.isTruthy),
  .pure "and" (.exactly 1) (connective false),
  .pure "or" (.exactly 1) (connective true),
  .pure "identity" (.exactly 0) identity,
  .pure "is_null" (.exactly 0) fun input _ =>
    .ok (.bool (match input with | .null => true | _ => false))]

/-- The comparisons. -/
def comparisons : List (Entry σ) := [
  .pure "equals" (.exactly 1) (comparison .eq),
  .pure "eq" (.exactly 1) (comparison .eq),
  .pure "not_equals" (.exactly 1) (comparison .ne),
  .pure "greater_than" (.exactly 1) (comparison .gt),
  .pure "gt" (.exactly 1) (comparison .gt),
  .pure "less_than" (.exactly 1) (comparison .lt),
  .pure "lt" (.exactly 1) (comparison .lt),
  .pure "greater_or_equal" (.exactly 1) (comparison .ge),
  .pure "less_or_equal" (.exactly 1) (comparison .le)]

/-- The operators that call others or read pools, and the sinks. -/
def surroundings : List (Entry σ) := [
  ⟨"map", .atLeast 1, mapWith⟩,
  ⟨"filter", .atLeast 1, filterWith⟩,
  ⟨"reduce", .exactly 1, reduceWith⟩,
  ⟨"from_pool", .exactly 1, fromPool⟩,
  .pure "print" .any identity,
  .pure "to_pool" (.exactly 1) identity,
  .pure "ui_render" .any identity]

/-- The core library. -/
def library : Library σ where
  name := "core"
  tier := .core
  entries := arithmetic ++ textual ++ collections ++ logical ++ comparisons ++ surroundings

end Sluice.Core
