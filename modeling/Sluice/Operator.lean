/-
  Sluice.Operator

  Operators and the libraries that provide them. An operator's work is an `Action`: a tree of
  requests to its surroundings (call another operator, read a pool, warn, act on the host)
  that ends in a result. Most operators finish at once; those that take an operator's name
  call it once per element.

  The type `σ` is the state of the host, which only a host's own operators can see.
-/

import Sluice.Operator.Attempt
import Sluice.Program.Node

namespace Sluice

/-- Where an implementation comes from. -/
inductive Tier where
  | core
  | domain
  | script
  | fallback
deriving Repr, DecidableEq

/-- Name of a tier, as messages spell it. -/
def Tier.name : Tier → String
  | core => "core"
  | domain => "domain"
  | script => "script"
  | fallback => "fallback"

/-- How many arguments an operator takes. -/
structure Arity where
  least : Nat := 0
  most : Option Nat := none
deriving Repr, DecidableEq

namespace Arity

/-- Any number of arguments. -/
def any : Arity := {}

/-- One number of arguments. -/
def exactly (n : Nat) : Arity := ⟨n, some n⟩

/-- A range of numbers of arguments. -/
def between (least most : Nat) : Arity := ⟨least, some most⟩

/-- A number of arguments or more. -/
def atLeast (n : Nat) : Arity := ⟨n, none⟩

/-- Whether a number of arguments is taken. -/
def admits (a : Arity) (found : Nat) : Bool :=
  decide (a.least ≤ found) &&
    match a.most with
    | some most => decide (found ≤ most)
    | none => true

/-- An arity in words. -/
def render (a : Arity) : String :=
  match a.most with
  | some most => if most = a.least then s!"{most}" else s!"{a.least}..={most}"
  | none => s!"at least {a.least}"

end Arity

/-- The work of an operator. -/
inductive Action (σ : Type) where
  /-- The end. -/
  | finish (result : Attempt Value)
  /-- Call an operator by name and go on with its result or its refusal. -/
  | call (name : String) (input : Value) (args : Arguments)
      (next : Except OperatorError Value → Action σ)
  /-- Read the value of a pool, if there is one. -/
  | readPool (name : String) (next : Option Value → Action σ)
  | warn (message : String) (next : Action σ)
  /-- Act on the host's state and end. -/
  | perform (effect : σ → Attempt Value × σ)

/-- What an operator does with an input and arguments. -/
abbrev Body (σ : Type) := Value → Arguments → Action σ

/-- An operator of a library. -/
structure Operator (σ : Type) where
  name : String
  arity : Arity
  tier : Tier
  library : String
  body : Body σ

/-- An operator that ends the traversal of a pipeline. -/
def Operator.isSink {σ : Type} (op : Operator σ) : Bool :=
  isTerminalName op.name

/-- An operator before it belongs to a library. -/
structure Entry (σ : Type) where
  name : String
  arity : Arity
  body : Body σ

/-- An operator that only computes. -/
def Entry.pure {σ : Type} (name : String) (arity : Arity)
    (f : Value → Arguments → Attempt Value) : Entry σ :=
  ⟨name, arity, fun input args => .finish (f input args)⟩

/-- The operators of one tier, or of one domain. -/
structure Library (σ : Type) where
  name : String
  tier : Tier
  entries : List (Entry σ)

namespace Library

variable {σ : Type}

/-- The operator of a name. -/
def operator? (library : Library σ) (name : String) : Option (Operator σ) :=
  (library.entries.find? fun e => e.name == name).map fun e =>
    ⟨e.name, e.arity, library.tier, library.name, e.body⟩

/-- The names that a library provides. -/
def names (library : Library σ) : List String :=
  library.entries.map (·.name)

end Library

end Sluice
