/-
  Sluice.Operator.Math

  The domain library `math`: roots, powers, logarithms, trigonometry, and whole numbers.
  Rounding, absolute value, multiplication and addition work on a number, or on every element
  of an array of numbers.
-/

import Sluice.Operator.Core
import Sluice.Operator.Word

namespace Sluice

variable {σ : Type}

/-- Apply a function to a number, or to every element of an array of numbers. -/
def elementwise (input : Value) (f : Number → Number) : Attempt Value :=
  match input with
  | .array _ => do return .array ((← input.expectNumbers).map fun x => .number (f x))
  | other => do return .number (f (← other.expectNumber))

/-- A whole number of at most 2^64, as an unsigned 64-bit number: 2^64 itself gives the
largest one. -/
def wholeNumber (x : Number) : Attempt Nat :=
  if Number.lt x 0.0 || !Number.isWhole x || Number.lt (Number.ofNat (Nat.pow 2 64)) x then
    Attempt.refuseDomain ("expected a non-negative whole number, got " ++ Number.plain x)
  else .ok (Number.toNatUpTo Number.maxWord x)

namespace Math

/-- An operator on a number whose result has to be finite. -/
def finiteUnary (name : String) (f : Number → Number) (input : Value) (_ : Arguments) :
    Attempt Value := do
  finiteResult name (f (← input.expectNumber))

/-- Square root of a number that is not negative. -/
def squareRoot (input : Value) (_ : Arguments) : Attempt Value := do
  let x ← input.expectNumber
  if Number.lt x 0.0 then Attempt.refuseDomain "square root of a negative number"
  else return .number x.sqrt

/-- The input to the power of the argument. -/
def pow (input : Value) (args : Arguments) : Attempt Value := do
  let x ← input.expectNumber
  let y ← args.number 0
  finiteResult "pow" (Number.pow x y)

/-- Logarithm to a base, ten by default. -/
def log (input : Value) (args : Arguments) : Attempt Value := do
  let x ← input.expectNumber
  let base ← args.numberOr 0 10.0
  if Number.le x 0.0 then Attempt.refuseDomain "logarithm of a non-positive number"
  else if Number.le base 0.0 || Number.eq base 1.0 then
    Attempt.refuseDomain ("invalid logarithm base " ++ Number.plain base)
  else return .number (Number.log x / Number.log base)

/-- Natural logarithm. -/
def naturalLog (input : Value) (_ : Arguments) : Attempt Value := do
  let x ← input.expectNumber
  if Number.le x 0.0 then Attempt.refuseDomain "logarithm of a non-positive number"
  else return .number (Number.log x)

/-- The product of the numbers from one to the input. -/
def factorial (input : Value) (_ : Arguments) : Attempt Value := do
  let n ← wholeNumber (← input.expectNumber)
  if 170 < n then Attempt.refuseDomain "factorial overflows above 170"
  else return .number ((List.range n).foldl (fun acc k => acc * Number.ofNat (k + 1)) 1.0)

/-- Input and argument as whole numbers. -/
def wholePair (input : Value) (args : Arguments) : Attempt (Nat × Nat) := do
  let a ← wholeNumber (← input.expectNumber)
  let b ← wholeNumber (← args.number 0)
  return (a, b)

/-- Greatest common divisor. -/
def gcd (input : Value) (args : Arguments) : Attempt Value := do
  let (a, b) ← wholePair input args
  return .number (Number.ofNat (← Word.gcd a b))

/-- Least common multiple; that of zero and anything is zero. -/
def lcm (overflow : Overflow) (input : Value) (args : Arguments) : Attempt Value := do
  let (a, b) ← wholePair input args
  if a = 0 ∨ b = 0 then return .number 0.0
  else return .number (Number.ofNat (← Word.lcm overflow a b))

/-- Round to decimal places. -/
def roundTo (input : Value) (args : Arguments) : Attempt Value := do
  let digits ← args.number 0
  elementwise input fun x => Core.roundTo x digits

/-- Multiply by the argument. -/
def multiply (input : Value) (args : Arguments) : Attempt Value := do
  let factor ← args.number 0
  elementwise input fun x => x * factor

/-- Add the argument. -/
def add (input : Value) (args : Arguments) : Attempt Value := do
  let offset ← args.number 0
  elementwise input fun x => x + offset

/-- The library `math` of a build. -/
def libraryWith (overflow : Overflow) : Library σ where
  name := "math"
  tier := .domain
  entries := [
    .pure "sqrt" (.exactly 0) squareRoot,
    .pure "pow" (.exactly 1) pow,
    .pure "log" (.between 0 1) log,
    .pure "ln" (.exactly 0) naturalLog,
    .pure "exp" (.exactly 0) (finiteUnary "exp" Number.exp),
    .pure "sin" (.exactly 0) (finiteUnary "sin" Number.sin),
    .pure "cos" (.exactly 0) (finiteUnary "cos" Number.cos),
    .pure "tan" (.exactly 0) (finiteUnary "tan" Number.tan),
    .pure "factorial" (.exactly 0) factorial,
    .pure "gcd" (.exactly 1) gcd,
    .pure "lcm" (.exactly 1) (lcm overflow),
    .pure "round_to" (.exactly 1) roundTo,
    .pure "abs" (.exactly 0) fun input _ => elementwise input Number.abs,
    .pure "multiply" (.exactly 1) multiply,
    .pure "add" (.exactly 1) add]

/-- The library `math`. -/
def library : Library σ :=
  libraryWith .checked

end Math

end Sluice
