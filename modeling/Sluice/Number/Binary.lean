/-
  Sluice.Number.Binary

  Numbers are doubles, kept as their 64 bits; so also the sign of a NaN is kept, which the
  total order shows.

  A finite double is counted exactly in units of 2^-1074, the smallest positive double: its
  magnitude is `units x` of them, a natural number. Comparison, arithmetic, rounding to whole
  numbers, remainders and the nearest double of a fraction are then exact arithmetic on naturals.

  `nearest` rounds to nearest with ties to even, and gives infinity beyond the largest double.
-/

namespace Sluice

/-- A double-precision number, as its bits. -/
structure Number where
  bits : UInt64
deriving Repr, DecidableEq, Inhabited

namespace Number

/-- Bits of an infinite magnitude; every larger magnitude is not a number. -/
def infinityBits : Nat := 0x7ff0000000000000

/-- One, counted in units of 2^-1074. -/
def one : Nat := Nat.pow 2 1074

/-- The sign bit. -/
def isNegative (x : Number) : Bool :=
  Nat.pow 2 63 ≤ x.bits.toNat

/-- The bits without the sign bit; they grow with the magnitude. -/
def magnitudeBits (x : Number) : Nat :=
  x.bits.toNat % Nat.pow 2 63

/-- Not a number. -/
def isNaN (x : Number) : Bool :=
  infinityBits < magnitudeBits x

/-- Neither infinite nor NaN. -/
def isFinite (x : Number) : Bool :=
  magnitudeBits x < infinityBits

/-- The significand of a finite double, with its leading bit. -/
def significand (x : Number) : Nat :=
  let bits := magnitudeBits x
  if bits < Nat.pow 2 52 then bits else bits % Nat.pow 2 52 + Nat.pow 2 52

/-- How many times the significand is doubled, counted from units of 2^-1074. -/
def exponent (x : Number) : Nat :=
  magnitudeBits x / Nat.pow 2 52 - 1

/-- Magnitude of a finite double in units of 2^-1074. -/
def units (x : Number) : Nat :=
  significand x * Nat.pow 2 (exponent x)

/-- The double with a sign and magnitude bits. -/
def ofMagnitudeBits (negative : Bool) (bits : Nat) : Number :=
  ⟨UInt64.ofNat (if negative then bits + Nat.pow 2 63 else bits)⟩

/-- Infinity with a sign. -/
def infinity (negative : Bool) : Number :=
  ofMagnitudeBits negative infinityBits

/-- Zero with a sign. -/
def zero (negative : Bool) : Number :=
  ofMagnitudeBits negative 0

/-- NaN with a sign. -/
def nan (negative : Bool) : Number :=
  ofMagnitudeBits negative 0x7ff8000000000000

/-! ## Rounding a fraction -/

/-- A quotient rounded to the nearest whole number, ties to even. -/
def divRoundEven (num den : Nat) : Nat :=
  let q := num / den
  let r := num % den
  if 2 * r < den then q
  else if den < 2 * r then q + 1
  else q + q % 2

/-- Magnitude bits of the double nearest to `num / den` units. The significand has 53 bits,
or fewer when the magnitude is below the normal range; a carry out of the significand moves
into the exponent by itself. -/
def nearestBits (num den : Nat) : Nat :=
  let size := Nat.log2 (num / den) + 1
  let doublings := size - 53
  let bits := doublings * Nat.pow 2 52 + divRoundEven num (den * Nat.pow 2 doublings)
  if bits < infinityBits then bits else infinityBits

/-- The double nearest to `num / den` units of 2^-1074. -/
def nearest (negative : Bool) (num den : Nat) : Number :=
  ofMagnitudeBits negative (nearestBits num den)

/-- The double nearest to a natural number. -/
def ofNat (n : Nat) : Number :=
  nearest false (n * one) 1

/-- The double with an exact magnitude in units. -/
def ofUnits (negative : Bool) (n : Nat) : Number :=
  nearest negative n 1

/-- Decimal constants are read to the nearest double. -/
instance : OfScientific Number where
  ofScientific n down e :=
    if down then nearest false (n * one) (Nat.pow 10 e)
    else nearest false (n * Nat.pow 10 e * one) 1

end Number

end Sluice
