/-
  Sluice.Number.Arithmetic

  Sums, differences, products and quotients: the exact result, rounded once to the nearest
  double.

  A NaN among the operands is the result, and of two the first. An operation that has no
  result on its operands (infinity less infinity, zero times infinity, zero by zero, infinity
  by infinity) gives the negative NaN. Negation and absolute value act on the sign alone, also
  on that of a NaN.
-/

import Sluice.Number.Order

namespace Sluice.Number

/-- What an operation gives that has no result on its operands. -/
def invalid : Number :=
  nan true

/-- Change the sign. -/
def negate (x : Number) : Number :=
  ofMagnitudeBits (!isNegative x) (magnitudeBits x)

/-- Drop the sign. -/
def abs (x : Number) : Number :=
  ofMagnitudeBits false (magnitudeBits x)

/-- The result of an operation on two operands, which is `result` when both are numbers. -/
def propagate (x y result : Number) : Number :=
  if isNaN x then x else if isNaN y then y else result

/-- A finite double in units of 2^-1074, sign included. -/
def signedUnits (x : Number) : Int :=
  if isNegative x then -(units x : Int) else units x

/-- Whether exactly one of two numbers has the sign bit. -/
def signsDiffer (x y : Number) : Bool :=
  isNegative x != isNegative y

/-- Sum. A zero sum is negative only if both operands are. -/
def add (x y : Number) : Number :=
  propagate x y <|
    if !isFinite x then
      if !isFinite y && signsDiffer x y then invalid else x
    else if !isFinite y then y
    else
      let exact := signedUnits x + signedUnits y
      if exact = 0 then zero (isNegative x && isNegative y)
      else ofUnits (decide (exact < 0)) exact.natAbs

/-- Difference. -/
def sub (x y : Number) : Number :=
  propagate x y (add x (negate y))

/-- Product. -/
def mul (x y : Number) : Number :=
  propagate x y <|
    if !isFinite x || !isFinite y then
      if isZero x || isZero y then invalid else infinity (signsDiffer x y)
    else nearest (signsDiffer x y) (units x * units y) one

/-- Quotient. A number other than zero by zero is infinite. -/
def div (x y : Number) : Number :=
  propagate x y <|
    if !isFinite x then
      if !isFinite y then invalid else infinity (signsDiffer x y)
    else if !isFinite y then zero (signsDiffer x y)
    else if isZero y then
      if isZero x then invalid else infinity (signsDiffer x y)
    else nearest (signsDiffer x y) (units x * one) (units y)

instance : Neg Number := ⟨negate⟩
instance : Add Number := ⟨add⟩
instance : Sub Number := ⟨sub⟩
instance : Mul Number := ⟨mul⟩
instance : Div Number := ⟨div⟩

end Sluice.Number
