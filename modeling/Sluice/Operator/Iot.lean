/-
  Sluice.Operator.Iot

  The domain library `iot`: temperature units, thresholds and linear scaling of readings.
-/

import Sluice.Operator.Math

namespace Sluice

variable {σ : Type}

namespace Iot

/-- A reading with a limit, and whether it is above it. -/
def thresholdAlert (input : Value) (args : Arguments) : Attempt Value := do
  let reading ← input.expectNumber
  let limit ← args.number 0
  return .object [("alert", .bool (Number.lt limit reading)), ("limit", .number limit),
    ("value", .number reading)]

/-- Multiply by a factor and add an offset, zero by default. -/
def scale (input : Value) (args : Arguments) : Attempt Value := do
  let factor ← args.number 0
  let offset ← args.numberOr 1 0.0
  elementwise input fun x => x * factor + offset

/-- The library `iot`. -/
def library : Library σ where
  name := "iot"
  tier := .domain
  entries := [
    .pure "celsius_to_fahrenheit" (.exactly 0) fun input _ =>
      elementwise input fun c => c * 9.0 / 5.0 + 32.0,
    .pure "fahrenheit_to_celsius" (.exactly 0) fun input _ =>
      elementwise input fun f => (f - 32.0) * 5.0 / 9.0,
    .pure "threshold_alert" (.exactly 1) thresholdAlert,
    .pure "scale" (.between 1 2) scale]

end Iot

end Sluice
