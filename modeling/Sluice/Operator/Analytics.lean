/-
  Sluice.Operator.Analytics

  The domain library `analytics`: statistics of an array of numbers. All but the count, the
  sum and the moving average refuse an empty array.
-/

import Sluice.Operator.Math

namespace Sluice

variable {σ : Type}

namespace Analytics

/-- The numbers of an array that has some. -/
def someNumbers (input : Value) : Attempt (List Number) := do
  let xs ← input.expectNumbers
  if xs.isEmpty then Attempt.refuseDomain "empty input" else return xs

/-- Arithmetic mean. -/
def meanOf (xs : List Number) : Number :=
  Core.total xs / Number.ofNat xs.length

/-- Population variance. -/
def varianceOf (xs : List Number) : Number :=
  let m := meanOf xs
  Core.total (xs.map fun x => (x - m) * (x - m)) / Number.ofNat xs.length

/-- Numbers in increasing total order. -/
def sorted (xs : List Number) : List Number :=
  xs.mergeSort fun a b => Number.totalCompare a b != .gt

/-- Linear interpolation between the closest ranks, for `p` between 0 and 100. -/
def percentileOf (xs : List Number) (p : Number) : Attempt Number := do
  let xs := sorted xs
  let rank := p / 100.0 * Number.ofNat (xs.length - 1)
  let low := Number.toNatUpTo Number.maxWord (Number.floor rank)
  let high := Number.toNatUpTo Number.maxWord (Number.ceiling rank)
  -- Between two ranks the result lies on the line through their numbers.
  let a ← Attempt.present xs[low]?
  let b ← Attempt.present xs[high]?
  return a + (b - a) * (rank - Number.ofNat low)

/-- An operator on the numbers of a non-empty array. -/
def statistic (f : List Number → Number) (input : Value) (_ : Arguments) : Attempt Value := do
  return .number (f (← someNumbers input))

/-- The middle of the sorted numbers. -/
def median (input : Value) (_ : Arguments) : Attempt Value := do
  return .number (← percentileOf (← someNumbers input) 50.0)

/-- The number below which a percentage of the numbers lie. -/
def percentile (input : Value) (args : Arguments) : Attempt Value := do
  let p ← args.number 0
  if Number.le 0.0 p && Number.le p 100.0 then
    return .number (← percentileOf (← someNumbers input) p)
  else Attempt.refuseDomain ("percentile " ++ Number.plain p ++ " outside 0..=100")

/-- The state of a search for the longest run of equal numbers: the longest so far, and the
one being read. -/
structure Runs where
  best : Number × Nat
  current : Number × Nat

/-- Take one more number of a sorted list. -/
def Runs.push (runs : Runs) (x : Number) : Runs :=
  let current := if Number.eq x runs.current.1 then (runs.current.1, runs.current.2 + 1) else (x, 1)
  { best := if runs.best.2 < current.2 then current else runs.best, current }

/-- The most frequent number, the smallest of several. -/
def mode (input : Value) (_ : Arguments) : Attempt Value := do
  let xs := sorted (← someNumbers input)
  let first ← Attempt.present xs.head?
  return .number (xs.foldl Runs.push ⟨(first, 0), (first, 0)⟩).best.1

/-- The numbers moved and scaled so that the least is zero and the greatest one. -/
def normalize (input : Value) (_ : Arguments) : Attempt Value := do
  let xs ← someNumbers input
  let inOrder := sorted xs
  let low ← Attempt.present inOrder.head?
  let high ← Attempt.present inOrder.getLast?
  let span := high - low
  return .array (xs.map fun x => .number (if Number.isZero span then 0.0 else (x - low) / span))

/-- The runs of a number of neighbouring elements. Runs of none are beyond recovery. -/
def windows (size : Nat) (xs : List Number) : Attempt (List (List Number)) :=
  if size = 0 then .error (.halt .emptyWindow)
  else .ok ((List.range (xs.length + 1 - size)).map fun i => (xs.drop i).take size)

/-- The means of the runs of a number of neighbours. -/
def movingAverage (input : Value) (args : Arguments) : Attempt Value := do
  let xs ← input.expectNumbers
  let size ← wholeNumber (← args.number 0)
  if size = 0 then Attempt.refuseDomain "moving_average window must be at least 1"
  else return .array ((← windows size xs).map fun w => .number (meanOf w))

/-- The least number. -/
def least (input : Value) (_ : Arguments) : Attempt Value := do
  return .number (← Attempt.present (sorted (← someNumbers input)).head?)

/-- The greatest number. -/
def greatest (input : Value) (_ : Arguments) : Attempt Value := do
  return .number (← Attempt.present (sorted (← someNumbers input)).getLast?)

/-- The library `analytics`. -/
def library : Library σ where
  name := "analytics"
  tier := .domain
  entries := [
    .pure "mean" (.exactly 0) (statistic meanOf),
    .pure "median" (.exactly 0) median,
    .pure "mode" (.exactly 0) mode,
    .pure "variance" (.exactly 0) (statistic varianceOf),
    .pure "stddev" (.exactly 0) (statistic fun xs => (varianceOf xs).sqrt),
    .pure "percentile" (.exactly 1) percentile,
    .pure "normalize" (.exactly 0) normalize,
    .pure "moving_average" (.exactly 1) movingAverage,
    .pure "count" (.exactly 0) fun input _ => do
      return .number (Number.ofNat (← input.expectItems).length),
    .pure "sum" (.exactly 0) fun input _ => do
      return .number (Core.total (← input.expectNumbers)),
    .pure "min_of" (.exactly 0) least,
    .pure "max_of" (.exactly 0) greatest]

end Analytics

end Sluice
