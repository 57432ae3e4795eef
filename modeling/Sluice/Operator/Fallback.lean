/-
  Sluice.Operator.Fallback

  The library of last resort: plain arithmetic for names that no other library provides, or
  whose other implementations keep failing.
-/

import Sluice.Operator.Math

namespace Sluice

variable {σ : Type}

namespace Fallback

/-- An operator on the input and one argument that passes over what is not a number. -/
def extremum (f : Number → Number → Number) (input : Value) (args : Arguments) :
    Attempt Value := do
  let x ← input.expectNumber
  let y ← args.number 0
  return .number (f x y)

/-- The library of last resort. -/
def library : Library σ where
  name := "fallback"
  tier := .fallback
  entries := [
    .pure "sqrt" (.exactly 0) (Math.finiteUnary "sqrt" Number.sqrt),
    .pure "pow" (.exactly 1) Math.pow,
    .pure "abs" (.exactly 0) (Core.unary Number.abs),
    .pure "floor" (.exactly 0) (Core.unary Number.floor),
    .pure "ceil" (.exactly 0) (Core.unary Number.ceiling),
    .pure "round" (.exactly 0) (Core.unary Number.round),
    .pure "log" (.exactly 0) (Math.finiteUnary "log" Number.log),
    .pure "exp" (.exactly 0) (Math.finiteUnary "exp" Number.exp),
    .pure "min" (.exactly 1) (extremum Number.minimum),
    .pure "max" (.exactly 1) (extremum Number.maximum)]

end Fallback

end Sluice
