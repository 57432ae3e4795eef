/-
  Sluice.Value.Compare

  Order and loose equality of values, and the six comparisons built from them.

  Numbers are ordered numerically, and a number against text or a boolean orders by the
  other side's numeric view; text is ordered by code points, false before true, and null
  equals null. Everything else is unordered. Loose equality is structural, except that a
  number equals text that reads as the same number.
-/

import Sluice.Value

namespace Sluice

namespace Value

/-- Order of two values, if they have one. -/
def compare? : Value → Value → Option Ordering
  | number x, number y => Number.compare? x y
  | number x, other => other.toNumber?.bind fun y => Number.compare? x y
  | other, number y => other.toNumber?.bind fun x => Number.compare? x y
  | text s, text t => some (compare s t)
  | bool a, bool b => some (compare a b)
  | null, null => some .eq
  | _, _ => none

/-- Equality up to numeric text. -/
def looselyEqual (a b : Value) : Bool :=
  match a, b with
  | number _, text _ => compare? a b == some .eq
  | text _, number _ => compare? a b == some .eq
  | _, _ => same a b

end Value

/-- A comparison of two values. -/
inductive Comparison where
  | gt
  | ge
  | lt
  | le
  | eq
  | ne
deriving Repr, DecidableEq

namespace Comparison

/-- How programs write a comparison. -/
def symbol : Comparison → String
  | gt => ">"
  | ge => ">="
  | lt => "<"
  | le => "<="
  | eq => "=="
  | ne => "!="

/-- Whether a comparison holds. Equality is loose; the others fail on unordered values. -/
def holds (op : Comparison) (a b : Value) : Bool :=
  match op with
  | eq => Value.looselyEqual a b
  | ne => !Value.looselyEqual a b
  | gt => Value.compare? a b == some .gt
  | lt => Value.compare? a b == some .lt
  | ge => match Value.compare? a b with
    | some o => o != .lt
    | none => false
  | le => match Value.compare? a b with
    | some o => o != .gt
    | none => false

end Comparison

end Sluice
