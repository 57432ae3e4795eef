/-
  Sluice.Operator.Health

  The domain library `health`: body mass index, heart rate zones and basal metabolic rate.
-/

import Sluice.Operator.Core

namespace Sluice

variable {σ : Type}

namespace Health

/-- Weight in kilograms by the square of the height in metres, to one decimal. -/
def bodyMassIndex (input : Value) (args : Arguments) : Attempt Value := do
  let weight ← input.expectNumber
  let height ← args.number 0
  if Number.le height 0.0 then Attempt.refuseDomain "height must be positive"
  else return .number (Core.roundTo (weight / (height * height)) 1.0)

/-- Zone of a heart rate, from zero to five, by its share of 220 less the age. -/
def heartRateZone (input : Value) (args : Arguments) : Attempt Value := do
  let rate ← input.expectNumber
  let age ← args.number 0
  let most := 220.0 - age
  if Number.le most 0.0 then Attempt.refuseDomain "age out of range"
  else
    let share := rate / most
    return .number <|
      if Number.lt share 0.5 then 0.0
      else if Number.lt share 0.6 then 1.0
      else if Number.lt share 0.7 then 2.0
      else if Number.lt share 0.8 then 3.0
      else if Number.lt share 0.9 then 4.0
      else 5.0

/-- Basal metabolic rate from weight in kilograms, height in centimetres, age and sex. -/
def basalRate (input : Value) (args : Arguments) : Attempt Value := do
  let weight ← input.expectNumber
  let height ← args.number 0
  let age ← args.number 1
  let sex := Text.toAsciiLower (← args.text 2)
  let rate := 10.0 * weight + 6.25 * height - 5.0 * age
  if sex = "male" ∨ sex = "m" then return .number (rate + 5.0)
  else if sex = "female" ∨ sex = "f" then return .number (rate + -161.0)
  else Attempt.refuseDomain s!"unknown sex '{sex}'"

/-- The library `health`. -/
def library : Library σ where
  name := "health"
  tier := .domain
  entries := [
    .pure "bmi" (.exactly 1) bodyMassIndex,
    .pure "heart_rate_zone" (.exactly 1) heartRateZone,
    .pure "bmr" (.exactly 3) basalRate]

end Health

end Sluice
