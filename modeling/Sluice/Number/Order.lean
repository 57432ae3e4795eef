/-
  Sluice.Number.Order

  The two orders of doubles. `compare?` is the numeric one: zeros of either sign are equal and
  NaN is unordered. `totalCompare` orders every double: negative zero before zero and NaN
  after infinity. Both compare integer keys read off the bits, so their laws are those of
  the integers.
-/

import Sluice.Number.Binary

namespace Sluice.Number

/-- Key of the numeric order; zeros of either sign share the key zero. -/
def numericKey (x : Number) : Int :=
  if isNegative x then -(magnitudeBits x : Int) else magnitudeBits x

/-- Key of the total order; a negative double lies one step below its numeric key. -/
def totalKey (x : Number) : Int :=
  if isNegative x then -(magnitudeBits x : Int) - 1 else magnitudeBits x

/-- Numeric comparison; `none` when one side is not a number. -/
def compare? (x y : Number) : Option Ordering :=
  if isNaN x || isNaN y then none else some (compare (numericKey x) (numericKey y))

/-- Comparison in the total order. -/
def totalCompare (x y : Number) : Ordering :=
  compare (totalKey x) (totalKey y)

/-- Numeric equality: false as soon as one side is not a number. -/
def eq (x y : Number) : Bool :=
  compare? x y == some .eq

/-- Numerically less. -/
def lt (x y : Number) : Bool :=
  compare? x y == some .lt

/-- Numerically less or equal. -/
def le (x y : Number) : Bool :=
  lt x y || eq x y

/-- A zero of either sign. -/
def isZero (x : Number) : Bool :=
  magnitudeBits x == 0

/-! ## Extremes and clamping -/

/-- The smaller of two doubles, and of equal ones the second; a side that is not a number is passed
over. -/
def minimum (x y : Number) : Number :=
  if isNaN x then y else if isNaN y then x else if lt x y then x else y

/-- The larger of two doubles, and of equal ones the second; a side that is not a number is passed
over. -/
def maximum (x y : Number) : Number :=
  if isNaN x then y else if isNaN y then x else if lt y x then x else y

/-- Move a double into the closed interval between two bounds; NaN stays as it is. -/
def clampTo (lo hi x : Number) : Number :=
  if lt x lo then lo else if lt hi x then hi else x

end Sluice.Number
