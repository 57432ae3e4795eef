/-
  Sluice.Config.Text

  Configurations as TOML text. Settings that a text leaves out keep their defaults and unknown
  keys are passed over; a setting of the wrong type, or out of its range, is refused.
-/

import Sluice.Config
import Sluice.Toml.Write

namespace Sluice

/-! ## Reading -/

namespace Toml

/-- A boolean. -/
def Node.toBool? : Node → Option Bool
  | .bool b => some b
  | _ => none

/-- A number; integers count as well. -/
def Node.toFloat? : Node → Option Number
  | .float x => some x
  | .integer n => some (if n < 0 then -(Number.ofNat n.natAbs) else Number.ofNat n.natAbs)
  | _ => none

/-- A whole number from zero up to a bound. -/
def Node.toNat? (bound : Nat) : Node → Option Nat
  | .integer n => if 0 ≤ n && n.toNat ≤ bound then some n.toNat else none
  | _ => none

/-- A string. -/
def Node.toText? : Node → Option String
  | .text s => some s
  | _ => none

/-- A list. -/
def Node.toList? {α : Type} (item : Node → Option α) : Node → Option (List α)
  | .array items => items.mapM item
  | .tables items => (items.map fun entries => Node.table .header entries).mapM item
  | _ => none

/-- The key under which a date or time counts as a table. -/
def momentKey : String := "$__toml_private_datetime"

/-- The entries of a table. A date or time counts as a table with its text as the one entry. -/
def Node.entries? : Node → Option (Record Node)
  | .table _ entries => some entries
  | .moment s => some [(momentKey, .text s)]
  | _ => none

/-- A table of entries of one kind. -/
def Node.toRecord? {α : Type} (item : Node → Option α) (node : Node) : Option (Record α) := do
  let read ← (← node.entries?).mapM fun (key, inner) => (item inner).map (key, ·)
  return Record.ofEntries read

/-- A setting: its key, and how a value changes the settings. -/
abbrev Setting (α : Type) := String × (Node → α → Option α)

/-- A setting whose value is read by one function and stored by another. -/
def setting {α β : Type} (key : String) (item : Node → Option β) (put : β → α → α) : Setting α :=
  (key, fun node settings => (item node).map fun v => put v settings)

/-- Settings from a table. -/
def ofEntries? {α : Type} (fields : List (Setting α)) (defaults : α) (entries : Record Node) :
    Option α :=
  entries.foldlM (fun settings (key, node) =>
    match fields.lookup key with
    | some change => change node settings
    | none => some settings) defaults

/-- Settings from a table, or from an array that lists their values in order. -/
def Node.toSettings? {α : Type} (fields : List (Setting α)) (defaults : α) : Node → Option α
  | .array items =>
    (fields.zip items).foldlM (fun settings (f, node) => f.2 node settings) defaults
  | .tables items =>
    (fields.zip items).foldlM (fun settings (f, entries) => f.2 (.table .header entries) settings)
      defaults
  | node => node.entries?.bind (ofEntries? fields defaults)

end Toml

open Toml

/-- The largest count that a setting can hold. -/
def maxCount : Nat := Nat.pow 2 64 - 1

/-- The largest small count that a setting can hold. -/
def maxSmallCount : Nat := Nat.pow 2 32 - 1

namespace Selection

/-- The settings of selection. -/
def fields : List (Setting Selection) := [
  setting "enabled" Node.toBool? fun v s => { s with enabled := v },
  setting "threshold" Node.toFloat? fun v s => { s with threshold := v },
  setting "input_size_weight" Node.toFloat? fun v s => { s with sizeWeight := v },
  setting "depth_weight" Node.toFloat? fun v s => { s with depthWeight := v },
  setting "domain_weights" (Node.toRecord? Node.toFloat?) fun v s => { s with domainWeights := v }]

/-- Selection settings are equal when their numbers are. -/
def same (a b : Selection) : Bool :=
  a.enabled == b.enabled && Number.eq a.threshold b.threshold
    && Number.eq a.sizeWeight b.sizeWeight && Number.eq a.depthWeight b.depthWeight
    && a.domainWeights.keys == b.domainWeights.keys
    && (a.domainWeights.contents.zip b.domainWeights.contents).all fun (x, y) => Number.eq x y

end Selection

/-- The settings of the breaker. -/
def BreakerSettings.fields : List (Setting BreakerSettings) := [
  setting "enabled" Node.toBool? fun v s => { s with enabled := v },
  setting "failure_threshold" (Node.toNat? maxSmallCount) fun v s => { s with threshold := v }]

/-- The settings of the domain libraries. -/
def DomainSettings.fields : List (Setting DomainSettings) := [
  setting "enabled" (Node.toList? Node.toText?) fun v _ => ⟨v⟩]

namespace Config

/-- The settings of an engine. -/
def fields : List (Setting Config) := [
  setting "history_capacity" (Node.toNat? maxCount) fun v c => { c with historyCapacity := v },
  setting "max_steps" (Node.toNat? maxCount) fun v c => { c with maxSteps := v },
  setting "max_subscriber_depth" (Node.toNat? maxCount)
    fun v c => { c with maxSubscriberDepth := v },
  setting "quiet" Node.toBool? fun v c => { c with quiet := v },
  setting "run_live_sources_once" Node.toBool? fun v c => { c with runLiveSourcesOnce := v },
  setting "fire_subscribers_on_start" Node.toBool?
    fun v c => { c with fireSubscribersOnStart := v },
  setting "operator_retries" (Node.toNat? maxSmallCount) fun v c => { c with operatorRetries := v },
  setting "selection" (Node.toSettings? Selection.fields {}) fun v c => { c with selection := v },
  setting "circuit_breaker" (Node.toSettings? BreakerSettings.fields {})
    fun v c => { c with breaker := v },
  setting "domains" (Node.toSettings? DomainSettings.fields {}) fun v c => { c with domains := v },
  setting "scripts" (Node.toRecord? Node.toText?) fun v c => { c with scripts := v }]

/-- Read a configuration from TOML text, and check it. -/
def ofToml (source : String) : Except SetupError Config :=
  match (Toml.read? source).bind (Toml.ofEntries? fields {}) with
  | none => .error (.config "TOML parse error")
  | some config => do
    config.check
    return config

/-! ## Writing -/

/-- A count; TOML has room for those of 63 bits. -/
def writeCount (n : Nat) : Except SetupError String :=
  if n < Nat.pow 2 63 then .ok s!"{n}"
  else .error (.serialization "out-of-range value for u64 type")

/-- The settings before the first header. -/
def topText (c : Config) : Except SetupError String := do
  let history ← writeCount c.historyCapacity
  let steps ← writeCount c.maxSteps
  let depth ← writeCount c.maxSubscriberDepth
  return writeEntry "history_capacity" history
    ++ writeEntry "max_steps" steps
    ++ writeEntry "max_subscriber_depth" depth
    ++ writeEntry "quiet" (writeBool c.quiet)
    ++ writeEntry "run_live_sources_once" (writeBool c.runLiveSourcesOnce)
    ++ writeEntry "fire_subscribers_on_start" (writeBool c.fireSubscribersOnStart)
    ++ writeEntry "operator_retries" s!"{c.operatorRetries}"

/-- A table under its header, after an empty line. -/
def tableText (header : String) (entries : List (String × String)) : String :=
  s!"\n[{header}]\n" ++ String.join (entries.map fun (key, written) => writeEntry key written)

/-- Write a configuration as TOML text. -/
def toToml (c : Config) : Except SetupError String := do
  return (← c.topText)
    ++ tableText "selection" [
      ("enabled", writeBool c.selection.enabled),
      ("threshold", writeFloat c.selection.threshold),
      ("input_size_weight", writeFloat c.selection.sizeWeight),
      ("depth_weight", writeFloat c.selection.depthWeight)]
    ++ tableText "selection.domain_weights" (c.selection.domainWeights.mapContents writeFloat)
    ++ tableText "circuit_breaker" [
      ("enabled", writeBool c.breaker.enabled),
      ("failure_threshold", s!"{c.breaker.threshold}")]
    ++ tableText "domains" [("enabled", writeTexts c.domains.enabled)]
    ++ tableText "scripts" (c.scripts.mapContents writeText)

/-- Configurations are equal when their settings are. -/
def same (a b : Config) : Bool :=
  a.historyCapacity == b.historyCapacity && a.maxSteps == b.maxSteps
    && a.maxSubscriberDepth == b.maxSubscriberDepth && a.quiet == b.quiet
    && a.runLiveSourcesOnce == b.runLiveSourcesOnce
    && a.fireSubscribersOnStart == b.fireSubscribersOnStart
    && a.operatorRetries == b.operatorRetries && a.selection.same b.selection
    && a.breaker == b.breaker && a.domains == b.domains && a.scripts == b.scripts

/-- Whether a configuration comes back from its own text. -/
def readsBack (c : Config) : Bool :=
  match c.toToml with
  | .error _ => false
  | .ok text =>
    match ofToml text with
    | .ok again => c.same again
    | .error _ => false

end Config

end Sluice
