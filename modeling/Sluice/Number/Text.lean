/-
  Sluice.Number.Text

  Numbers as text. Three layouts are written: `plain` (always positional), `rendered` (whole
  numbers below 10^15 as integers, else plain) and `json` (scientific outside 10^-5 to 10^16).
  One grammar is read: an optional sign, then digits with an optional fraction and exponent,
  or a spelled infinity or NaN in any case.
-/

import Sluice.Number.Shortest
import Sluice.Text.Cut
import Sluice.Text.Casing

namespace Sluice.Number

open Sluice.Text (isDigit digitValue?)

/-! ## Writing -/

/-- A sign in front of a negative number. -/
def signed (x : Number) (magnitude : List Char) : List Char :=
  if isNegative x then '-' :: magnitude else magnitude

/-- The shortest digits that read back, always positional; a zero keeps its sign. -/
def plain (x : Number) : String :=
  if isNaN x then "NaN"
  else if !isFinite x then (if isNegative x then "-inf" else "inf")
  else if isZero x then (if isNegative x then "-0" else "0")
  else String.ofList (signed x (shortest .up x).positional)

/-- Plain digits, where a whole number keeps one decimal. -/
def withFraction (x : Number) : String :=
  if isWhole x then plain x ++ ".0" else plain x

/-- Decimal digits of an integer. -/
def integerText (n : Int) : String :=
  String.ofList (if n < 0 then '-' :: Nat.toDigits 10 n.natAbs else Nat.toDigits 10 n.natAbs)

/-- A number as the program shows it: a whole number below 10^15 as an integer (so a negative
zero loses its sign), any other number plain. -/
def rendered (x : Number) : String :=
  if showsAsInteger x then integerText (toInt x) else plain x

/-- A finite number as JSON text with at least one decimal: positional from 10^-5 up to below
10^16, scientific elsewhere. -/
def jsonDecimal (x : Number) : String :=
  if isZero x then (if isNegative x then "-0.0" else "0.0")
  else
    let d := shortest .even x
    String.ofList <| signed x <|
      if -5 ≤ d.point - 1 ∧ d.point - 1 < 16 then
        if (d.digits.length : Int) ≤ d.point then d.positional ++ ['.', '0'] else d.positional
      else d.scientific

/-- A number as JSON text: a whole number below 10^15 as an integer, and `null` for what JSON
cannot write. -/
def json (x : Number) : String :=
  if !isFinite x then "null"
  else if showsAsInteger x then integerText (toInt x)
  else jsonDecimal x

/-! ## Reading -/

/-- The double nearest to `n * 10 ^ e`. Exponents far outside the range of doubles are decided
by the number of digits alone. -/
def nearestDecimal (negative : Bool) (n : Nat) (e : Int) : Number :=
  let size : Int := (Nat.toDigits 10 n).length
  if n = 0 || decide (size + e < -400) then zero negative
  else if 400 < size + e then infinity negative
  else nearest negative (n * Nat.pow 10 e.toNat * one) (Nat.pow 10 (-e).toNat)

/-- A signed decimal exponent: an optional sign and at least one digit. -/
def readExponent? : List Char → Option Int
  | '-' :: digits => (Text.digitsValue? digitValue? 10 digits).map fun n => -(n : Int)
  | '+' :: digits => (Text.digitsValue? digitValue? 10 digits).map Int.ofNat
  | digits => (Text.digitsValue? digitValue? 10 digits).map Int.ofNat

/-- Digits with an optional fraction and exponent; one digit must stand before the exponent. -/
def readDecimal? (negative : Bool) (cs : List Char) : Option Number :=
  let whole := cs.takeWhile isDigit
  let rest := cs.dropWhile isDigit
  let (fraction, tail) :=
    match rest with
    | '.' :: more => (more.takeWhile isDigit, more.dropWhile isDigit)
    | more => ([], more)
  match Text.digitsValue? digitValue? 10 (whole ++ fraction) with
  | none => none
  | some n =>
    let places : Int := fraction.length
    match tail with
    | [] => some (nearestDecimal negative n (-places))
    | c :: more =>
      if c = 'e' ∨ c = 'E' then
        (readExponent? more).map fun e => nearestDecimal negative n (e - places)
      else none

/-- A magnitude: an infinity or NaN spelled in any case, or a decimal. -/
def readMagnitude? (negative : Bool) (cs : List Char) : Option Number :=
  let word := cs.map Text.asciiLower
  if word = "inf".toList ∨ word = "infinity".toList then
    some (infinity negative)
  else if word = "nan".toList then some (nan negative)
  else readDecimal? negative cs

/-- Read a whole text as a number. -/
def readChars? : List Char → Option Number
  | '-' :: cs => readMagnitude? true cs
  | '+' :: cs => readMagnitude? false cs
  | cs => readMagnitude? false cs

/-- Read a whole text as a number. -/
def read? (s : String) : Option Number :=
  readChars? s.toList

/-- Read a text as an unsigned 64-bit number: one plus sign may stand before its digits. -/
def readWord? (s : String) : Option Nat :=
  match Text.unsigned? digitValue? 10 s.toList with
  | some n => if n ≤ maxWord then some n else none
  | none => none

end Sluice.Number
