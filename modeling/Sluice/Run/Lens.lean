/-
  Sluice.Run.Lens

  Lenses: `map`, `filter` and `reduce` run their body on every element of an array, `split`
  runs it on the value itself and keeps the decision for the branches that follow.
-/

import Sluice.Run.Invoke

namespace Sluice.Step

variable {σ : Type}

/-- The elements of an array. -/
def expectItems (node : Node) : Value → Step σ (List Value)
  | .array items => pure items
  | v => failAt node node.name (.typeMismatch "array" v.typeName)

/-- Add elements to a total, from the left. -/
def addItems (node : Node) : (total : Number) → List Value → Step σ Number
  | total, [] => pure total
  | total, v :: rest =>
    match v.toNumber? with
    | some x => addItems node (total + x) rest
    | none => failAt node node.name (.typeMismatch "number" v.typeName)

/-- The sum of elements. -/
def sum (node : Node) (items : List Value) : Step σ Value := do
  return .number (← addItems node 0.0 items)

/-- One step of a lens body on a value. -/
def evalStep (ctx : RunContext σ) (node : Node) (v : Value) : LensStep → Step σ Value
  | .field path => pure ((v.at? path).getD .null)
  | .compare path op operand => do
    let right ← evalArgument ctx node operand
    return .bool (op.holds ((v.at? path).getD .null) right)
  | .sum =>
    match v with
    | .array items => sum node items
    | _ => pure v
  | .call name arguments => do
    invoke ctx node name 1 v (← evalArguments ctx node arguments)

/-- The steps of a lens body on a value. -/
def evalSteps (ctx : RunContext σ) (node : Node) (steps : List LensStep) (v : Value) :
    Step σ Value :=
  steps.foldlM (evalStep ctx node) v

/-- The elements on which a lens body is truthy. -/
def keepItems (ctx : RunContext σ) (node : Node) (steps : List LensStep) :
    List Value → Step σ (List Value)
  | [] => pure []
  | v :: rest => do
    let keep := (← evalSteps ctx node steps v).isTruthy
    let kept ← keepItems ctx node steps rest
    return if keep then v :: kept else kept

/-- The warning of a `reduce` whose body says neither what to add nor how to get it. -/
def underspecified (node : Node) (body : LensBody) : String :=
  s!"line {node.line}: ReduceUnderspecified: reduce \x7b{body.raw}\x7d is neither '+' nor a pipe "
    ++ "chain, result is 0"

/-- Run a lens on a packet. -/
def applyLens (ctx : RunContext σ) (node : Node) (lens : Lens) (body : LensBody)
    (packet : Packet) : Step σ Packet := do
  match lens with
  | .map =>
    let items ← expectItems node packet.value
    return { packet with value := .array (← items.mapM (evalSteps ctx node body.steps)) }
  | .filter =>
    let items ← expectItems node packet.value
    return { packet with value := .array (← keepItems ctx node body.steps items) }
  | .split =>
    let decision ← evalSteps ctx node body.steps packet.value
    return { packet with selector := some decision.isTruthy }
  | .reduce =>
    let items ← expectItems node packet.value
    if body.isSum then
      return { packet with value := ← sum node items }
    else if body.isChain then
      -- A chain says what of each element is added up.
      let mapped ← items.mapM (evalSteps ctx node body.stepsWithoutSum)
      return { packet with value := ← sum node mapped }
    else
      modify (Run.warn (underspecified node body))
      return { packet with value := .number 0.0 }

end Sluice.Step
