/-
  Sluice.Script.Language

  Scripts, in whatever language they are written. A language compiles texts, calls a function of
  a script, and evaluates a script's body. An evaluation has names in scope and a world that it
  may look at and change, as a script that reads a clock does. Of one that fails only the wording
  is known, and whether it failed for want of a function.

  A script that defines the entry point is run by calling it with the input and the arguments;
  the body of any other script is evaluated with `value` and `args` in scope. A failed look-up of
  a function whose name starts with that of the entry point is taken for a missing entry point.
-/

import Sluice.Operator.Attempt
import Sluice.SetupError

namespace Sluice.Script

/-! ## Data -/

/-- What a script works with. -/
inductive Datum where
  | unit
  | bool (b : Bool)
  | integer (n : Int)
  | float (x : Number)
  | char (c : Char)
  | text (s : String)
  | array (items : List Datum)
  | map (fields : List (String × Datum))
  /-- Anything else, of which the name of its type is known. -/
  | other (typeName : String)

namespace Datum

mutual

/-- A value as a script sees it. -/
def ofValue : Value → Datum
  | .null => .unit
  | .bool b => .bool b
  | .number x => .float x
  | .text s => .text s
  | .array items => .array (ofItems items)
  | .object fields => .map (ofFields fields)

/-- The elements of an array as a script sees them. -/
def ofItems : List Value → List Datum
  | [] => []
  | v :: rest => ofValue v :: ofItems rest

/-- The fields of an object as a script sees them. -/
def ofFields : List (String × Value) → List (String × Datum)
  | [] => []
  | (key, v) :: rest => (key, ofValue v) :: ofFields rest

end

/-- The number of an integer. -/
def wholeNumber (n : Int) : Number :=
  if n < 0 then -(Number.ofNat n.natAbs) else Number.ofNat n.natAbs

mutual

/-- The value of a datum, unless there is something in it that is none. -/
def toValue : Datum → Except SetupError Value
  | .unit => .ok .null
  | .bool b => .ok (.bool b)
  | .integer n => .ok (.number (wholeNumber n))
  | .float x => .ok (.number x)
  | .char c => .ok (.text c.toString)
  | .text s => .ok (.text s)
  | .array items => (toItems items).map .array
  | .map fields => (toFields fields).map fun entries => .object (Record.ofEntries entries)
  | .other typeName => .error (.script s!"Script returned unsupported type '{typeName}'")

/-- The values of elements, from the left. -/
def toItems : List Datum → Except SetupError (List Value)
  | [] => .ok []
  | d :: rest => do
    let v ← d.toValue
    return v :: (← toItems rest)

/-- The values of fields, from the left. -/
def toFields : List (String × Datum) → Except SetupError (List (String × Value))
  | [] => .ok []
  | (key, d) :: rest => do
    let v ← d.toValue
    return (key, v) :: (← toFields rest)

end

end Datum

/-! ## Languages -/

/-- Why an evaluation stops. -/
inductive Stop where
  /-- A function that is not there; its signature starts with its name. -/
  | functionNotFound (signature message : String)
  | failed (message : String)
  | halted (h : Halt)

/-- The names in scope. -/
abbrev Scope := List (String × Datum)

/-- An evaluation, which leaves a scope and a world behind. -/
abbrev Evaluation (ω : Type) := Scope → ω → Except Stop Datum × Scope × ω

/-- A language for scripts, in a world of states `ω`. -/
structure Language (ω : Type) where
  /-- Compiled texts. -/
  Code : Type
  /-- Compile a text, or say what is wrong with it. -/
  compile : String → Except String Code
  /-- Call a function of a script. -/
  call : Code → (function : String) → List Datum → Evaluation ω
  /-- Evaluate the body of a script. -/
  eval : Code → Evaluation ω

/-- The name of the entry point. -/
def entryPoint : String := "apply"

/-- Whether an evaluation stopped at what is taken for a missing entry point. -/
def Stop.isMissingEntry : Stop → Bool
  | functionNotFound signature _ => entryPoint.toList.isPrefixOf signature.toList
  | failed _ => false
  | halted _ => false

/-- Call the entry point of a script, or else evaluate its body. -/
def Language.evaluate {ω : Type} (language : Language ω) (code : language.Code)
    (input args : Datum) (world : ω) : Except Stop Datum × ω :=
  match language.call code entryPoint [input, args] [("value", input), ("args", args)] world with
  | (.ok d, _, world) => (.ok d, world)
  | (.error stop, scope, world) =>
    -- Any failed look-up of such a name counts, also one from deep inside.
    if stop.isMissingEntry then
      let (result, _, world) := language.eval code scope world
      (result, world)
    else (.error stop, world)

/-! ## Compiled scripts -/

/-- A compiled script, with the name it was compiled under. -/
structure Compiled (α : Type) where
  name : String
  text : String
  code : α

/-- What the evaluation of a script comes to: a value, or an error under the script's name. -/
def Compiled.settle {α : Type} (script : Compiled α) :
    Except Stop Datum → Except Halt (Except SetupError Value)
  | .ok d => .ok d.toValue
  | .error (.functionNotFound _ message) | .error (.failed message) =>
    .ok (.error (.script (s!"Execution error in '{script.name}': " ++ message)))
  | .error (.halted h) => .error h

/-- Run a compiled script on an input and arguments. -/
def Language.execute {ω : Type} (language : Language ω) (script : Compiled language.Code)
    (input : Value) (args : List Value) (world : ω) :
    Except Halt (Except SetupError Value) × ω :=
  let (result, world) :=
    language.evaluate script.code (Datum.ofValue input) (.array (Datum.ofItems args)) world
  (script.settle result, world)

/-- What a script does as an operator. -/
abbrev Operation (ω : Type) := Value → Arguments → ω → Attempt Value × ω

/-- A compiled script as an operator. -/
def Language.operation {ω : Type} (language : Language ω) (script : Compiled language.Code) :
    Operation ω := fun input args world =>
  match language.execute script input args world with
  | (.ok (.ok v), world) => (.ok v, world)
  | (.ok (.error e), world) => (Attempt.refuseDomain e.message, world)
  | (.error h, world) => (.error (.halt h), world)

/-- The same work on a larger state, of which the world is a part. -/
def Operation.within {ω σ : Type} (get : σ → ω) (put : ω → σ → σ) (operation : Operation ω) :
    Operation σ := fun input args s =>
  let (result, world) := operation input args (get s)
  (result, put world s)

/-! ## The cache -/

/-- The scripts compiled so far. A text is compiled once, and keeps the name it was first
compiled under. -/
abbrev Cache (α : Type) := List (Compiled α)

/-- The compiled script of a text, from the cache or freshly compiled into it. -/
def Cache.getOrCompileWith {α : Type} (compiler : String → Except String α) (cache : Cache α)
    (name text : String) : Except SetupError (Compiled α) × Cache α :=
  match cache.find? fun script => script.text == text with
  | some script => (.ok script, cache)
  | none =>
    match compiler text with
    | .error message => (.error (.script ("Compilation error: " ++ message)), cache)
    | .ok code =>
      let script : Compiled α := ⟨name, text, code⟩
      (.ok script, cache ++ [script])

end Sluice.Script
