/-
  Sluice.Json.Number

  Numbers of JSON text. An integer that fits 64 bits is converted exactly rounded. Any other
  number keeps as many leading digits as fit an unsigned 64-bit significand, drops the rest,
  and scales the significand's double by one multiplication or division by a power of ten; so
  the result may differ from the nearest double in its last bit. A number beyond the largest
  double is refused.
-/

import Sluice.Number.Text

namespace Sluice.Json

open Sluice.Text (isDigit digitValue?)
open Sluice.Number (maxWord nearestDecimal)

/-- The largest exponent that is read exactly. -/
def maxExponent : Int := Int.ofNat (Nat.pow 2 31 - 1)

/-- A power of ten as a double. -/
def powerOfTen (n : Nat) : Number :=
  nearestDecimal false 1 n

/-- Scale by a power of ten. While the exponent is below -308, a factor of 10^308 is divided
out first; `fuel` bounds how often, and 4000 rounds underflow any double. -/
def scale (fuel : Nat) (x : Number) (e : Int) : Option Number :=
  if 0 ≤ e then
    if 308 < e then (if Number.isZero x then some x else none)
    else
      let y := x * powerOfTen e.toNat
      if Number.isFinite y then some y else none
  else if -308 ≤ e then some (x / powerOfTen (-e).toNat)
  else if Number.isZero x then some x
  else match fuel with
    | 0 => some x
    | fuel + 1 => scale fuel (x / powerOfTen 308) (e + 308)

/-- A signed number from its significand and exponent. -/
def ofParts (negative : Bool) (significand : Nat) (e : Int) : Option Number :=
  (scale 4000 (Number.ofNat significand) e).map fun x => if negative then -x else x

/-- Digits of an exponent, after its sign. Digits past the largest exponent are not read: the
number is then zero, or too large. -/
def exponentPart (negative : Bool) (significand : Nat) (start : Int) (cs : List Char) :
    Option Number :=
  let (down, digits) :=
    match cs with
    | '+' :: rest => (false, rest)
    | '-' :: rest => (true, rest)
    | rest => (false, rest)
  match Text.digitsValue? digitValue? 10 digits with
  | none => none
  | some n =>
    if maxExponent < n then
      -- Too large, unless the digits are all zero or the exponent is negative.
      if significand ≠ 0 ∧ !down then none
      else some (Number.zero negative)
    else
      ofParts negative significand (if down then start - n else start + n)

/-- An exponent part, or the end of the number. -/
def exponentOrEnd (negative : Bool) (significand : Nat) (e : Int) : List Char → Option Number
  | [] => ofParts negative significand e
  | c :: rest =>
    if c = 'e' ∨ c = 'E' then exponentPart negative significand e rest else none

/-- Digits taken into the significand until the next one would overflow it: the significand,
how many digits it took, and what follows them. -/
def takeDigits (significand taken : Nat) : List Char → Nat × Nat × List Char
  | [] => (significand, taken, [])
  | c :: rest =>
    match digitValue? c with
    | none => (significand, taken, c :: rest)
    | some d =>
      if maxWord < significand * 10 + d then (significand, taken, c :: rest)
      else takeDigits (significand * 10 + d) (taken + 1) rest

/-- The fraction after the point, of which at least one digit must be there. Digits that do not
fit the significand are dropped. -/
def fractionPart (negative : Bool) (significand : Nat) (e : Int) (cs : List Char) :
    Option Number :=
  if (cs.takeWhile isDigit).isEmpty then none
  else
    let (significand, taken, rest) := takeDigits significand 0 cs
    exponentOrEnd negative significand (e - taken) (rest.dropWhile isDigit)

/-- What follows the integer digits, of which `dropped` did not fit the significand. -/
def afterInteger (negative : Bool) (significand dropped : Nat) : List Char → Option Number
  | '.' :: rest => fractionPart negative significand dropped rest
  | rest => exponentOrEnd negative significand dropped rest

/-- An integer that fits 64 bits; below the least signed one, and at negative zero, the
magnitude is converted first. -/
def integer (negative : Bool) (significand : Nat) : Number :=
  if negative then -(Number.ofNat significand) else Number.ofNat significand

/-- A number without its sign: no leading zero before another digit. -/
def magnitude? (negative : Bool) : List Char → Option Number
  | [] => none
  | '0' :: rest =>
    match rest with
    | [] => some (integer negative 0)
    | c :: _ => if isDigit c then none else afterInteger negative 0 0 rest
  | c :: cs =>
    if isDigit c then
      let (significand, _, rest) := takeDigits 0 0 (c :: cs)
      if rest.isEmpty then some (integer negative significand)
      else
        -- The digits that did not fit still count as places.
        let tail := rest.dropWhile isDigit
        afterInteger negative significand (rest.takeWhile isDigit).length tail
    else none

/-- A JSON number. -/
def number? : List Char → Option Number
  | '-' :: cs => magnitude? true cs
  | cs => magnitude? false cs

end Sluice.Json
