/-
  Sluice.Number.Elementary

  Roots, powers, exponentials, logarithms and the circular functions, as the machine computes
  them. A NaN among the operands is the result, and an operand outside a function's domain
  gives the negative NaN.
-/

import Sluice.Number.Arithmetic

namespace Sluice.Number

/-- The machine's form of a number that is not a NaN. -/
def toMachine (x : Number) : Float :=
  Float.ofBits x.bits

/-- The number that the machine computed from operands that are not NaN. -/
def ofMachine (result : Float) : Number :=
  if result.isNaN then invalid else ⟨result.toBits⟩

/-- A function of the machine. -/
def machine (f : Float → Float) (x : Number) : Number :=
  if isNaN x then x else ofMachine (f (toMachine x))

/-- Square root. -/
def sqrt (x : Number) : Number := machine Float.sqrt x

/-- Exponential. -/
def exp (x : Number) : Number := machine Float.exp x

/-- Natural logarithm. -/
def log (x : Number) : Number := machine Float.log x

/-- Logarithm to base ten. -/
def log10 (x : Number) : Number := machine Float.log10 x

/-- Sine. -/
def sin (x : Number) : Number := machine Float.sin x

/-- Cosine. -/
def cos (x : Number) : Number := machine Float.cos x

/-- Tangent. -/
def tan (x : Number) : Number := machine Float.tan x

/-- Power. One to any power, and anything to the power of zero, is one, even where the other
operand is not a number. -/
def pow (x y : Number) : Number :=
  if isZero y || eq x 1.0 then 1.0
  else propagate x y (ofMachine (Float.pow (toMachine x) (toMachine y)))

end Sluice.Number
