/-
  Sluice.Number.Whole

  Whole parts of doubles: floor, ceiling, rounding with halves away from zero, remainder, and
  the conversions to integers that stop at the ends of their range.

  A result always keeps the sign of its argument, so a negative number that rounds to zero
  gives a negative zero. Infinities and NaN round to themselves.
-/

import Sluice.Number.Elementary

namespace Sluice.Number

/-- The whole number below or at the magnitude of a finite double. -/
def wholeMagnitude (x : Number) : Nat :=
  units x / one

/-- Whether a finite double has a fractional part. -/
def hasFraction (x : Number) : Bool :=
  units x % one != 0

/-- A finite double without a fractional part. -/
def isWhole (x : Number) : Bool :=
  isFinite x && !hasFraction x

/-- Replace the magnitude of a finite double by a whole number; anything else is kept. -/
def withWhole (x : Number) (n : Nat) : Number :=
  if isFinite x then ofUnits (isNegative x) (n * one) else x

/-- Round down. -/
def floor (x : Number) : Number :=
  withWhole x (if isNegative x && hasFraction x then wholeMagnitude x + 1 else wholeMagnitude x)

/-- Round up. -/
def ceiling (x : Number) : Number :=
  withWhole x (if !isNegative x && hasFraction x then wholeMagnitude x + 1 else wholeMagnitude x)

/-- Round to the nearest whole number, halves away from zero. -/
def round (x : Number) : Number :=
  withWhole x ((2 * units x + one) / (2 * one))

/-- Remainder of a division rounded toward zero; it has the sign of the dividend. -/
def remainder (x y : Number) : Number :=
  propagate x y <|
    if !isFinite x || isZero y then invalid
    else if !isFinite y then x
    else ofUnits (isNegative x) (units x % units y)

/-! ## Conversions to integers -/

/-- Convert to a natural number of at most `limit`: the fraction is dropped, negative numbers
and NaN give zero, and what is too large gives `limit`. -/
def toNatUpTo (limit : Nat) (x : Number) : Nat :=
  if isNaN x || isNegative x then 0
  else if !isFinite x then limit
  else min (wholeMagnitude x) limit

/-- The largest unsigned 64-bit number. -/
def maxWord : Nat := Nat.pow 2 64 - 1

/-- The whole number a finite double denotes, sign included, with the fraction dropped. -/
def toInt (x : Number) : Int :=
  if isNegative x then -(wholeMagnitude x : Int) else wholeMagnitude x

/-- Whether a double is whole and of a magnitude below 10^15, so that it is shown as an
integer. -/
def showsAsInteger (x : Number) : Bool :=
  isWhole x && decide (wholeMagnitude x < Nat.pow 10 15)

end Sluice.Number
