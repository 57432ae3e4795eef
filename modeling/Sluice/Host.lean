/-
  Sluice.Host

  Where operators are found and performed. A `Host` finds the implementation of a name, hears
  of every outcome, and may change its state `σ` at each of these moments. Performing an
  operator carries a `Trail`: the host's state, the number of operators it called, and the
  warnings it gave.

  Operators that take an operator's name may name themselves, so calls need not end. A call
  therefore has an allowance of further levels of calls, and a call without any left is the
  halt `endlessCalls`. What stands deeper in its node has fewer levels left.
-/

import Sluice.Config
import Sluice.Operator
import Sluice.Pool

namespace Sluice

/-- Why a name has no implementation, or a library cannot be loaded. -/
inductive ResolveError where
  | notFound (name : String)
  | libraryLoad (library message : String)
deriving Repr, DecidableEq

/-- The wording of a failed resolution. -/
def ResolveError.message : ResolveError → String
  | notFound name => s!"no library provides operator '{name}'"
  | libraryLoad library message => s!"failed to load library '{library}': {message}"

/-- What a run asks of its surroundings. -/
structure Host (σ : Type) where
  /-- Find the implementation of a name for a call. -/
  resolve : String → CallProfile → σ → Except ResolveError (Operator σ) × σ
  /-- Hear of the outcome of an invocation. -/
  record : String → Tier → Bool → σ → σ
  /-- Load a library ahead of use. -/
  preload : String → σ → Except ResolveError Unit × σ
  /-- Hand over the warnings gathered so far. -/
  drainWarnings : σ → List String × σ
  /-- Whether runs are to stop. -/
  isCancelled : σ → Bool

/-- What performing an operator leaves behind. -/
structure Trail (σ : Type) where
  state : σ
  /-- Operators called on the way. -/
  nested : Nat := 0
  warnings : List String := []

/-- The profile of a call: the size of its input, where a value without size counts as one, and
its depth. -/
def CallProfile.ofInput (input : Value) (depth : Nat) : CallProfile :=
  ⟨input.size?.getD 1, depth⟩

/-- A way to call an operator by name. -/
abbrev Caller (σ : Type) := String → Value → Arguments → σ → Attempt Value × Trail σ

namespace Caller

/-- No operator can be called. -/
def detached {σ : Type} : Caller σ := fun name _ _ s =>
  (Attempt.refuse (.unknownOperator name), { state := s })

end Caller

namespace Action

variable {σ : Type}

/-- Perform an action with the pools it may read and a way to call operators. -/
def run (pools : Option PoolStore) (caller : Caller σ) :
    Action σ → Trail σ → Attempt Value × Trail σ
  | .finish result, trail => (result, trail)
  | .perform effect, trail =>
    let (result, state) := effect trail.state
    (result, { trail with state })
  | .warn message next, trail =>
    next.run pools caller { trail with warnings := trail.warnings ++ [message] }
  | .readPool name next, trail =>
    (next (pools.bind (·.value? name))).run pools caller trail
  | .call name input args next, trail =>
    let (result, inner) := caller name input args trail.state
    let after : Trail σ :=
      ⟨inner.state, trail.nested + inner.nested, trail.warnings ++ inner.warnings⟩
    match result with
    | .ok v => (next (.ok v)).run pools caller after
    | .error (.error e) => (next (.error e)).run pools caller after
    | .error (.halt h) => (.error (.halt h), after)

end Action

namespace Operator

variable {σ : Type}

/-- Invoke an operator: the number of arguments is checked first. -/
def invoke (op : Operator σ) (pools : Option PoolStore) (caller : Caller σ) (input : Value)
    (args : Arguments) (s : σ) : Attempt Value × Trail σ :=
  if op.arity.admits args.length then (op.body input args).run pools caller { state := s }
  else (Attempt.refuse (.arity op.arity.render args.length), { state := s })

/-- Invoke an operator that has no pools to read and no operators to call. -/
def invokeDetached (op : Operator σ) (input : Value) (args : Arguments) (s : σ) :
    Attempt Value × Trail σ :=
  op.invoke none Caller.detached input args s

end Operator

/-- Whether an attempt succeeded. -/
def Attempt.isOk {α : Type} : Attempt α → Bool
  | .ok _ => true
  | .error _ => false

namespace Host

variable {σ : Type}

/-- Levels of calls below a node before they count as endless. -/
def nestingAllowance : Nat := 10000

/-- Call an operator by name from within an operator at some depth. -/
def call (host : Host σ) (pools : PoolStore) : (allowance depth : Nat) → Caller σ
  | 0, _, _, _, _, s => (.error (.halt .endlessCalls), { state := s })
  | allowance + 1, depth, name, input, args, s =>
    -- A depth is a number of 64 bits.
    if Number.maxWord ≤ depth then (.error (.halt .overflow), { state := s })
    else
      match host.resolve name (.ofInput input (depth + 1)) s with
      | (.error _, s) => (Attempt.refuse (.unknownOperator name), { state := s })
      | (.ok op, s) =>
        -- The operator's own calls are one level deeper and have one level less to go.
        let (result, trail) :=
          op.invoke (some pools) (host.call pools allowance (depth + 1)) input args s
        (result,
          { trail with
            state := host.record name op.tier result.isOk trail.state
            nested := trail.nested + 1 })

/-- The way in which an operator at some depth calls others. -/
def caller (host : Host σ) (pools : PoolStore) (depth : Nat) : Caller σ :=
  host.call pools (nestingAllowance - depth) depth

end Host

end Sluice
