/-
  Sluice.Operator.Attempt

  How an operator's work ends. An `OperatorError` is the operator's own refusal: it fails the
  pipeline, may be retried, and counts against the implementation. A `Halt` is beyond
  recovery: the whole run stops without a report.
-/

import Sluice.Halt
import Sluice.Value.Render

namespace Sluice

/-- An operator's refusal. -/
inductive OperatorError where
  /-- An input or argument of the wrong type. -/
  | typeMismatch (expected found : String)
  /-- A value outside the operator's domain. -/
  | domain (message : String)
  /-- A number of arguments that the operator does not take. -/
  | arity (expected : String) (found : Nat)
  /-- A call of an operator that no library provides. -/
  | unknownOperator (name : String)
deriving Repr, DecidableEq

/-- The wording of a refusal. -/
def OperatorError.message : OperatorError → String
  | typeMismatch expected found => s!"expected {expected}, found {found}"
  | domain message => message
  | arity expected found => s!"expected {expected} arguments, found {found}"
  | unknownOperator name => s!"unknown operator '{name}'"

/-- What goes wrong in an operator. -/
inductive Fault where
  | error (e : OperatorError)
  | halt (h : Halt)
deriving Repr, DecidableEq

/-- A result, or what went wrong instead. -/
abbrev Attempt (α : Type) := Except Fault α

namespace Attempt

/-- Refuse. -/
def refuse {α : Type} (e : OperatorError) : Attempt α :=
  .error (.error e)

/-- Refuse a value outside the domain. -/
def refuseDomain {α : Type} (message : String) : Attempt α :=
  refuse (.domain message)

/-- Refuse a value of the wrong type. -/
def refuseType {α : Type} (expected : String) (found : Value) : Attempt α :=
  refuse (.typeMismatch expected found.typeName)

/-- Something that has to be there. -/
def present {α : Type} : Option α → Attempt α
  | some a => .ok a
  | none => .error (.halt .outOfRange)

end Attempt

/-! ## Inputs and arguments -/

namespace Value

/-- A number, or text that reads as one. -/
def expectNumber (v : Value) : Attempt Number :=
  match v with
  | number x => .ok x
  | text s =>
    match Number.readChars? (Text.trimChars s.toList) with
    | some x => .ok x
    | none => Attempt.refuseType "number" v
  | _ => Attempt.refuseType "number" v

/-- A text. -/
def expectText : Value → Attempt String
  | text s => .ok s
  | v => Attempt.refuseType "text" v

/-- The elements of an array. -/
def expectItems : Value → Attempt (List Value)
  | array items => .ok items
  | v => Attempt.refuseType "array" v

/-- The elements of an array as numbers. -/
def expectNumbers (v : Value) : Attempt (List Number) := do
  (← v.expectItems).mapM expectNumber

/-- The fields of an object. -/
def expectFields : Value → Attempt (List (String × Value))
  | object fields => .ok fields
  | v => Attempt.refuseType "object" v

end Value

/-- The arguments of a call. -/
abbrev Arguments := List Value

namespace Arguments

/-- The refusal of a missing argument. -/
def missing (args : Arguments) (i : Nat) : OperatorError :=
  .arity s!"at least {i + 1}" args.length

/-- An argument that the arity check promised. -/
def get (args : Arguments) (i : Nat) : Attempt Value :=
  Attempt.present args[i]?

/-- The arguments behind the first one, which the arity check promised. -/
def rest : Arguments → Attempt Arguments
  | [] => .error (.halt .outOfRange)
  | _ :: more => .ok more

theorem eq_tail_of_rest {args more : Arguments} (h : args.rest = .ok more) : more = args.tail := by
  cases args with
  | nil => cases h
  | cons first others =>
    cases h
    rfl

/-- An argument as a number. -/
def number (args : Arguments) (i : Nat) : Attempt Number :=
  match args[i]? with
  | some v => v.expectNumber
  | none => Attempt.refuse (args.missing i)

/-- An argument as a number, or a default when it is missing. -/
def numberOr (args : Arguments) (i : Nat) (default : Number) : Attempt Number :=
  match args[i]? with
  | some v => v.expectNumber
  | none => .ok default

/-- An argument's text. -/
def text (args : Arguments) (i : Nat) : Attempt String :=
  match args[i]? with
  | some v => .ok v.render
  | none => Attempt.refuse (args.missing i)

/-- An argument's text, or a default when it is missing. -/
def textOr (args : Arguments) (i : Nat) (default : String) : String :=
  match args[i]? with
  | some v => v.render
  | none => default

end Arguments

/-- A result that has to be finite. -/
def finiteResult (operator : String) (x : Number) : Attempt Value :=
  if Number.isFinite x then .ok (.number x)
  else Attempt.refuseDomain s!"{operator} produced a non-finite result"

end Sluice
