/-
  Sluice.Script.Plain

  A small language for scripts: numbers, texts, arrays, records and the functions of one to five
  numbers. What scripts of this language come to does not depend on the world.
-/

import Sluice.Number.Order
import Sluice.Script.Expr
import Sluice.Script.Language

namespace Sluice.Script

/-- Name of a datum's type. -/
def Datum.typeName : Datum → String
  | .unit => "()"
  | .bool _ => "bool"
  | .integer _ => "i64"
  | .float _ => "f64"
  | .char _ => "char"
  | .text _ => "&str | ImmutableString | String"
  | .array _ => "array"
  | .map _ => "map"
  | .other name => name

/-- Why the evaluation of an expression stops. -/
inductive EvalError where
  | functionNotFound (name : String) (types : List String) (position : Position)
  | variableNotFound (name : String) (position : Position)
  | outOfBounds (index : Int) (size : Nat) (position : Position)
  | thrown (message : String) (position : Position)
  | tooManyOperations (position : Position)
  | halted (h : Halt)
deriving Repr, DecidableEq

/-- A function that is asked for, with the types of its arguments. -/
def signature (name : String) (types : List String) : String :=
  s!"{name} (" ++ Text.join ", " types ++ ")"

/-- What an evaluation error tells of itself. -/
def EvalError.toStop : EvalError → Stop
  | functionNotFound name types p =>
    .functionNotFound (signature name types)
      ("Function not found: " ++ signature name types ++ " " ++ p.render)
  | variableNotFound name p => .failed (s!"Variable not found: {name} " ++ p.render)
  | outOfBounds i size p =>
    let room :=
      if size = 0 then "array is empty"
      else if size = 1 then "only 1 element in array"
      else s!"only {size} elements in array"
    .failed (s!"Array index {i} out of bounds: {room} " ++ p.render)
  | thrown message p => .failed (s!"Runtime error: {message} " ++ p.render)
  | tooManyOperations p => .failed ("Too many operations " ++ p.render)
  | halted h => .halted h

/-! ## Functions -/

/-- The functions of one number. -/
def unary? (name : String) : Option (Number → Number) :=
  match name with
  | "abs" => some Number.abs
  | "sqrt" => some Number.sqrt
  | "exp" => some Number.exp
  | "ln" => some Number.log
  | "log" => some Number.log
  | "log10" => some Number.log10
  | "sin" => some Number.sin
  | "cos" => some Number.cos
  | "tan" => some Number.tan
  | "floor" => some Number.floor
  | "ceil" => some Number.ceiling
  | "round" => some Number.round
  | _ => none

/-- The functions of two numbers. -/
def binary? (name : String) : Option (Number → Number → Number) :=
  match name with
  | "+" => some (· + ·)
  | "*" => some (· * ·)
  | "%" => some Number.remainder
  | "pow" => some Number.pow
  | "min" => some Number.minimum
  | "max" => some Number.maximum
  | _ => none

/-- Linear interpolation. -/
def lerp (a b t : Number) : Number :=
  a + (b - a) * t

/-- The linear map from one range to another. -/
def mapRange (x inLow inHigh outLow outHigh : Number) : Number :=
  (x - inLow) * (outHigh - outLow) / (inHigh - inLow) + outLow

/-- The numbers of a list of data, if all are numbers. -/
def numbers? : List Datum → Option (List Number)
  | [] => some []
  | .float x :: rest => (numbers? rest).map (x :: ·)
  | _ => none

/-- Move a number into an interval; bounds of which the first is not the lower one are beyond
recovery. -/
def clamp (x lo hi : Number) : Except Halt Datum :=
  if Number.le lo hi then .ok (.float (Number.clampTo lo hi x)) else .error .unorderedBounds

/-- A function of numbers. -/
def numeric? (name : String) (xs : List Number) : Option (Except Halt Datum) :=
  match xs with
  | [] =>
    if name = "pi" then some (.ok (.float 3.141592653589793))
    else if name = "e" then some (.ok (.float 2.718281828459045))
    else none
  | [x] =>
    if name = "is_nan" then some (.ok (.bool (Number.isNaN x)))
    else (unary? name).map fun f => .ok (.float (f x))
  | [x, y] =>
    if name = "==" then some (.ok (.bool (Number.eq x y)))
    else (binary? name).map fun f => .ok (.float (f x y))
  | [x, y, z] =>
    if name = "clamp" then some (clamp x y z)
    else if name = "lerp" then some (.ok (.float (lerp x y z)))
    else none
  | [x, a, b, c, d] =>
    if name = "map_range" then some (.ok (.float (mapRange x a b c d))) else none
  | _ => none

/-- Number of elements of a collection, or of characters of a text. -/
def Datum.size? : Datum → Option Nat
  | .text s => some s.toList.length
  | .array items => some items.length
  | .map fields => some fields.length
  | _ => none

/-- Call a function of the language. -/
def builtin? (name : String) (args : List Datum) : Option (Except Halt Datum) :=
  match name, args with
  | "+", [.text s, .float x] => some (.ok (.text (s ++ Number.withFraction x)))
  | "len", [d] => d.size?.map fun n => .ok (.float (Number.ofNat n))
  | _, _ => (numbers? args).bind (numeric? name)

/-! ## Evaluation -/

/-- The element of an array. -/
def elementAt (items : List Datum) (i : Int) (p : Position) : Except EvalError Datum :=
  match if i < 0 then none else items[i.toNat]? with
  | some d => .ok d
  | none => .error (.outOfBounds i items.length p)

mutual

/-- Evaluate an expression. -/
def evaluate (scope : Scope) : Expr → Except EvalError Datum
  | .float x => .ok (.float x)
  | .integer n => .ok (.integer n)
  | .text s => .ok (.text s)
  | .char c => .ok (.char c)
  | .unit => .ok .unit
  | .closure => .ok (.other "Fn")
  | .named name p =>
    match scope.lookup name with
    | some d => .ok d
    | none => .error (.variableNotFound name p)
  | .call name args p => do
    let data ← evaluateAll scope args
    match builtin? name data with
    | some (.ok d) => .ok d
    | some (.error h) => .error (.halted h)
    | none => .error (.functionNotFound name (data.map Datum.typeName) p)
  | .index target subscript p => do
    match ← evaluate scope target, ← evaluate scope subscript with
    | .array items, .integer i => elementAt items i p
    | a, b => .error (.functionNotFound "index$get$" [a.typeName, b.typeName] p)
  | .record fields => do
    return .map (Record.ofEntries (← evaluateFields scope fields))
  | .throw message p => do
    match ← evaluate scope message with
    | .text s => .error (.thrown s p)
    | other => .error (.thrown other.typeName p)
  | .loop p => .error (.tooManyOperations p)

/-- Evaluate arguments from the left. -/
def evaluateAll (scope : Scope) : List Expr → Except EvalError (List Datum)
  | [] => .ok []
  | e :: rest => do
    let d ← evaluate scope e
    return d :: (← evaluateAll scope rest)

/-- Evaluate fields from the left. -/
def evaluateFields (scope : Scope) :
    List (String × Expr) → Except EvalError (List (String × Datum))
  | [] => .ok []
  | (key, e) :: rest => do
    let d ← evaluate scope e
    return (key, d) :: (← evaluateFields scope rest)

end

/-- Call a function of a script, whose body is evaluated before. -/
def Source.call (script : Source) (function : String) (args : List Datum) (scope : Scope) :
    Except EvalError Datum := do
  let _ ← evaluate scope script.body
  match script.functions.find? fun f => f.name == function && f.params.length == args.length with
  | none => .error (.functionNotFound function (args.map Datum.typeName) {})
  | some f => evaluate (f.params.zip args) f.body

/-- Compile a script, or say what is wrong with it. -/
def compileText (text : String) : Except String Source :=
  (compile text).mapError CompileError.message

/-- The language. -/
def plain {ω : Type} : Language ω where
  Code := Source
  compile := compileText
  call script function args scope world :=
    ((script.call function args scope).mapError EvalError.toStop, scope, world)
  eval script scope world :=
    ((evaluate scope script.body).mapError EvalError.toStop, scope, world)

/-- Whether a script compiles. -/
def isValid (text : String) : Bool :=
  (compile text).isOk

end Sluice.Script
