/-
  Sluice.Run.Invoke

  Operators within a pipeline: their arguments are evaluated, the name is resolved once, and a
  failing implementation is tried again as often as the settings say.
-/

import Sluice.Literal
import Sluice.Run.State

namespace Sluice.Step

variable {σ : Type}

/-- The value of an argument at this moment. A pool that does not exist counts as null, with a
warning. -/
def evalArgument (ctx : RunContext σ) (node : Node) (argument : Argument) : Step σ Value := do
  match argument with
  | .given v => return v
  | .source text =>
    match argument.poolReference? with
    | none => return Literal.read ctx.json text
    | some pool =>
      match (← get).pools.value? pool with
      | some v => return v
      | none =>
        modify (Run.warn (s!"line {node.line}: argument '{text}' of '{node.name}' references "
          ++ s!"undeclared pool '{pool}', using null"))
        return .null

/-- The values of arguments, from the left. -/
def evalArguments (ctx : RunContext σ) (node : Node) (arguments : List Argument) :
    Step σ Arguments :=
  arguments.mapM (evalArgument ctx node)

/-- Invoke an implementation once: calls are counted under the name that was asked for, the
operator's warnings carry the line, and the host hears of the outcome. -/
def attempt (ctx : RunContext σ) (node : Node) (op : Operator σ) (name : String) (depth : Nat)
    (input : Value) (args : Arguments) : Step σ (Attempt Value) := do
  let r ← get
  let (result, trail) :=
    op.invoke (some r.pools) (ctx.host.caller r.pools depth) input args r.state
  -- Failed attempts count like successful ones.
  set
    { r with
      metrics := r.metrics.countOperator name (1 + trail.nested)
      warnings := r.warnings ++ (trail.warnings.map fun w => s!"line {node.line}: {w}").toArray
      state := ctx.host.record name op.tier result.isOk trail.state }
  return result

/-- Invoke an implementation until it succeeds or no retry is left. -/
def attemptUpTo (ctx : RunContext σ) (node : Node) (op : Operator σ) (name : String) (depth : Nat)
    (input : Value) (args : Arguments) : (retries : Nat) → Step σ Value
  | 0 => do
    match ← attempt ctx node op name depth input args with
    | .ok v => return v
    | .error (.halt h) => halt h
    | .error (.error e) => failAt node name (.ofRefusal e)
  | retries + 1 => do
    match ← attempt ctx node op name depth input args with
    | .ok v => return v
    | .error (.halt h) => halt h
    | .error (.error _) =>
      modify (Run.count fun m => { m with retries := m.retries + 1 })
      attemptUpTo ctx node op name depth input args retries

/-- Resolve and invoke an operator. -/
def invoke (ctx : RunContext σ) (node : Node) (name : String) (depth : Nat) (input : Value)
    (args : Arguments) : Step σ Value := do
  let r ← get
  let (found, state) := ctx.host.resolve name (.ofInput input depth) r.state
  set { r with state }
  match found with
  | .error _ => failAt node name (.unknownOperator name)
  | .ok op => attemptUpTo ctx node op name depth input args ctx.config.operatorRetries

end Sluice.Step
