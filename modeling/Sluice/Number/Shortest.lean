/-
  Sluice.Number.Shortest

  The fewest decimal digits that read back as the same double. A double stands for every real
  that rounds to it; the shortest decimal is a multiple of the largest power of ten that has
  a multiple in that interval, and of those the one nearest to the double. When two are
  equally near, the caller says whether the upper or the even one is taken.
-/

import Sluice.Number.Whole

namespace Sluice.Number

/-- A positive decimal: the digits `digits`, the first of them not zero, stand directly after
the point of a fraction that is then multiplied by `10 ^ point`. -/
structure Decimal where
  digits : List Char
  point : Int
deriving Repr, DecidableEq

/-- Which of two equally near decimals is taken. -/
inductive Tie where
  | up
  | even
deriving Repr, DecidableEq

/-- The multiple of `10 ^ e` taken for a positive double, if the interval of reals that round
to the double holds one. Distances are counted in quarters of the last binary place. -/
def onGrid? (tie : Tie) (x : Number) (e : Int) : Option Nat :=
  let m := significand x
  let unitsPerQuarter := Nat.pow 2 (exponent x) * Nat.pow 10 (-e).toNat
  let unitsPerStep := 4 * one * Nat.pow 10 e.toNat
  let value := 4 * m * unitsPerQuarter
  -- At a power of two the doubles below are twice as dense.
  let low := (if m = Nat.pow 2 52 ∧ 0 < exponent x then 4 * m - 1 else 4 * m - 2) * unitsPerQuarter
  let high := (4 * m + 2) * unitsPerQuarter
  -- An even significand wins the ties at both ends of its interval.
  let inside (n : Nat) : Bool :=
    if m % 2 = 0 then decide (low ≤ n * unitsPerStep ∧ n * unitsPerStep ≤ high)
    else decide (low < n * unitsPerStep ∧ n * unitsPerStep < high)
  -- If any multiple lies inside, so does one of the two around the double.
  let below := value / unitsPerStep
  let above := below + 1
  let belowFits := decide (0 < below) && inside below
  if belowFits && inside above then
    let toBelow := value - below * unitsPerStep
    let toAbove := above * unitsPerStep - value
    if toBelow < toAbove then some below
    else if toAbove < toBelow then some above
    else match tie with
      | .up => some above
      | .even => some (if below % 2 = 0 then below else above)
  else if belowFits then some below
  else if inside above then some above
  else none

/-- Search the grids from `10 ^ e` downwards. -/
def firstGrid (tie : Tie) (x : Number) : Nat → Int → Nat × Int
  | 0, e => (0, e)
  | fuel + 1, e =>
    match onGrid? tie x e with
    | some n => (n, e)
    | none => firstGrid tie x fuel (e - 1)

/-- An exponent of ten above every positive double of this size: log₁₀ 2 is below 0.30103. -/
def exponentAbove (x : Number) : Int :=
  ((Nat.log2 (units x) : Int) - 1074) * 30103 / 100000 + 2

/-- The shortest decimal of a positive finite double. Seventeen digits always suffice, and the
search starts at most three places above the first of them. -/
def shortest (tie : Tie) (x : Number) : Decimal :=
  let (n, e) := firstGrid tie x 24 (exponentAbove x)
  let digits := Nat.toDigits 10 n
  let kept := (digits.reverse.dropWhile (· == '0')).reverse
  { digits := kept, point := e + digits.length }

/-! ## Layouts -/

/-- Digits of a decimal without an exponent; a whole number has no point. -/
def Decimal.positional (d : Decimal) : List Char :=
  let size : Int := d.digits.length
  if d.point ≤ 0 then
    '0' :: '.' :: List.replicate (-d.point).toNat '0' ++ d.digits
  else if size ≤ d.point then
    d.digits ++ List.replicate (d.point - size).toNat '0'
  else
    d.digits.take d.point.toNat ++ '.' :: d.digits.drop d.point.toNat

/-- Digits of a decimal with one place before the point and a signed exponent. -/
def Decimal.scientific (d : Decimal) : List Char :=
  let mantissa :=
    match d.digits with
    | first :: second :: rest => first :: '.' :: second :: rest
    | digits => digits
  let e := d.point - 1
  mantissa ++ 'e' :: (if e < 0 then '-' else '+') :: Nat.toDigits 10 e.natAbs

end Sluice.Number
