/-
  Sluice.Proofs.Run.Summing

  The two ways to sum an array. A lens `reduce` with a plus sign for its body adds from zero what
  counts as a number, and so takes a boolean for zero or one. The core operator `reduce` with a
  plus sign for its argument adds, from negative zero, what operators take for a number, which a
  boolean is not. An element that a sum does not take is a type mismatch in either.

  Main statement: both give the same number, up to the sign of a zero, or both fail with a type
  mismatch, unless everything counts as a number and something is a boolean. Then the lens gives
  a sum and the operator fails.
-/

import Mathlib.Data.List.Basic
import Sluice.Operator.Core
import Sluice.Proofs.Number.Addition
import Sluice.Proofs.Run.Outcome
import Sluice.Proofs.Value.Numeric

namespace Sluice

variable {σ : Type}

-- ============================================================================
-- The lens
-- ============================================================================

namespace Step

/-- Elements are added up, unless one does not count as a number. The first such element is a type
mismatch. -/
theorem outcome_addItems (node : Node) (total : Number) (items : List Value) (r : Run σ) :
    (addItems node total items).outcome r =
      match items.find? fun v => v.toNumber?.isNone with
      | none => (.ok (.ok ((items.filterMap Value.toNumber?).foldl (· + ·) total)), r)
      | some v =>
        (.ok (.error ⟨.typeMismatch "number" v.typeName, .atNode node node.name⟩), r) := by
  induction items generalizing total with
  | nil => rfl
  | cons v rest ih =>
    unfold addItems
    cases hv : v.toNumber? with
    | none =>
      rw [List.find?_cons_of_pos (by rw [hv]; rfl)]
      rfl
    | some x =>
      rw [List.find?_cons_of_neg (by rw [hv]; exact Bool.false_ne_true),
        List.filterMap_cons_some hv]
      exact ih (total + x)

variable {ctx : RunContext σ} {node : Node} {body : LensBody} {packet : Packet}
  {items : List Value}

/-- The total of a sum, or its failure, becomes that of the lens. -/
theorem outcome_applyLens_sum (hbody : body.isSum = true) (hvalue : packet.value = .array items)
    (r : Run σ) :
    (applyLens ctx node .reduce body packet).outcome r =
      match (addItems node 0.0 items).outcome r with
      | (.ok (.ok x), r') => (.ok (.ok { packet with value := .number x }), r')
      | (.ok (.error e), r') => (.ok (.error e), r')
      | (.error h, r') => (.error h, r') := by
  have hlens : applyLens ctx node .reduce body packet = do
      return { packet with value := .number (← addItems node 0.0 items) } := by
    simp only [applyLens, hvalue, expectItems, pure_bind, hbody, if_true, sum, bind_assoc]
  rw [hlens, outcome_bind]
  match (addItems node 0.0 items).outcome r with
  | (.ok (.ok x), r') => rfl
  | (.ok (.error e), r') => rfl
  | (.error h, r') => rfl

end Step

-- ============================================================================
-- The operator
-- ============================================================================

/-- An array is read as numbers, unless an element is not numeric. The first such element is a
type mismatch. -/
theorem Value.expectNumbers_array (items : List Value) :
    (array items).expectNumbers =
      match items.find? fun v => v.numeric?.isNone with
      | none => .ok (items.filterMap numeric?)
      | some v => Attempt.refuseType "number" v := by
  show items.mapM expectNumber = _
  induction items with
  | nil => rfl
  | cons v rest ih =>
    rw [List.mapM_cons, expectNumber_eq]
    cases hv : v.numeric? with
    | none =>
      rw [List.find?_cons_of_pos (by rw [hv]; rfl)]
      rfl
    | some x =>
      rw [List.find?_cons_of_neg (by rw [hv]; exact Bool.false_ne_true),
        List.filterMap_cons_some hv, ih]
      cases rest.find? fun v => v.numeric?.isNone with
      | none => rfl
      | some w => rfl

namespace Core

theorem reduceWith_plus (input : Value) :
    (reduceWith input [.text "+"] : Action σ) =
      .finish (do return .number (total (← input.expectNumbers))) := by
  rfl

theorem invoke_reduce_plus {op : Operator σ} (hop : library.operator? "reduce" = some op)
    (pools : Option PoolStore) (caller : Caller σ) (input : Value) (s : σ) :
    op.invoke pools caller input [.text "+"] s =
      (do return .number (total (← input.expectNumbers)), { state := s }) := by
  cases hop
  show (reduceWith input [.text "+"]).run pools caller { state := s } = _
  rw [reduceWith_plus]
  rfl

end Core

-- ============================================================================
-- Agreement
-- ============================================================================

/-- Elements that all count as numbers, and among which there is a boolean. -/
def Value.CountsBooleans (items : List Value) : Prop :=
  (∀ v ∈ items, v.toNumber?.isSome = true) ∧ ∃ b, bool b ∈ items

/-- A lens and an operator that give one number, where the sign of a zero may differ, or that both
fail with a type mismatch. -/
inductive SumsAgree : Except Halt (Except Failure Packet) → Attempt Value → Prop where
  | number {packet : Packet} {x y : Number} (hvalue : packet.value = .number x)
      (halike : Number.Alike x y) : SumsAgree (.ok (.ok packet)) (.ok (.number y))
  | mismatch (found found' : String) (location : Location) :
      SumsAgree (.ok (.error ⟨.typeMismatch "number" found, location⟩))
        (Attempt.refuse (.typeMismatch "number" found'))

namespace Value

variable {items : List Value}

theorem isSome_of_find?_isNone {α : Type} {read : Value → Option α}
    (h : items.find? (fun v => (read v).isNone) = none) : ∀ v ∈ items, (read v).isSome = true := by
  intro v hv
  have hpresent := List.find?_eq_none.1 h v hv
  rwa [Option.isNone_iff_eq_none, ← ne_eq, ← Option.isSome_iff_ne_none] at hpresent

/-- Numeric elements are the same numbers for both sums. -/
theorem filterMap_toNumber?_eq (h : ∀ v ∈ items, v.numeric?.isSome = true) :
    items.filterMap toNumber? = items.filterMap numeric? := by
  refine List.filterMap_congr fun v hv => ?_
  obtain ⟨x, hx⟩ := Option.isSome_iff_exists.1 (h v hv)
  rw [hx, toNumber?_of_numeric? hx]

theorem not_countsBooleans_of_numeric (h : ∀ v ∈ items, v.numeric?.isSome = true) :
    ¬ CountsBooleans items := by
  rintro ⟨-, b, hb⟩
  cases h _ hb

end Value

/-- Summed by a lens and by the core operator, an array gives one number or fails with a type
mismatch in both, unless it counts booleans. Then the lens sums and the operator fails. -/
theorem Step.sums_agree {ctx : RunContext σ} {node : Node} {body : LensBody} {packet : Packet}
    {items : List Value} {op : Operator σ} (hbody : body.isSum = true)
    (hvalue : packet.value = .array items) (hop : Core.library.operator? "reduce" = some op)
    (pools : Option PoolStore) (caller : Caller σ) (s : σ) (r : Run σ) :
    let lens := (applyLens ctx node .reduce body packet).outcome r
    let called := op.invoke pools caller packet.value [.text "+"] s
    (¬ Value.CountsBooleans items → SumsAgree lens.1 called.1) ∧
    (Value.CountsBooleans items →
      lens.1 = .ok (.ok { packet with
        value := .number ((items.filterMap Value.toNumber?).foldl (· + ·) 0.0) }) ∧
      called.1 = Attempt.refuse (.typeMismatch "number" "bool")) ∧
    lens.2 = r ∧ called.2 = { state := s } := by
  intro lens called
  have hlens : lens = _ := outcome_applyLens_sum hbody hvalue r
  have hcalled : called = _ := Core.invoke_reduce_plus hop pools caller packet.value s
  rw [outcome_addItems] at hlens
  rw [hvalue, Value.expectNumbers_array] at hcalled
  have hstart : (0.0 : Number) = Number.zero false := by decide +kernel
  cases hcounts : items.find? fun v => v.toNumber?.isNone with
  | none =>
    have hall := Value.isSome_of_find?_isNone hcounts
    rw [hcounts] at hlens
    cases hreads : items.find? fun v => v.numeric?.isNone with
    | none =>
      have hnumeric := Value.isSome_of_find?_isNone hreads
      rw [hreads] at hcalled
      refine ⟨fun _ => ?_, fun hbooleans => ?_, by rw [hlens], by rw [hcalled]⟩
      · rw [hlens, hcalled]
        refine .number rfl ?_
        rw [Value.filterMap_toNumber?_eq hnumeric, hstart]
        exact (Number.alike_zero false true).foldl_add _
      · exact absurd hbooleans (Value.not_countsBooleans_of_numeric hnumeric)
    | some w =>
      -- The element counts as a number without being numeric, so it is a boolean.
      have hw := List.mem_of_find?_eq_some hreads
      have hnone : w.numeric? = none := by simpa using List.find?_some hreads
      obtain ⟨x, hx⟩ := Option.isSome_iff_exists.1 (hall w hw)
      obtain ⟨b, rfl⟩ := Value.exists_bool_of_toNumber? hx hnone
      rw [hreads] at hcalled
      refine ⟨fun hnot => ?_, fun _ => ⟨?_, ?_⟩, by rw [hlens], by rw [hcalled]⟩
      · exact absurd ⟨hall, b, hw⟩ hnot
      · rw [hlens]
      · rw [hcalled]
        rfl
  | some v =>
    have hv := List.mem_of_find?_eq_some hcounts
    have hnone : v.toNumber? = none := by simpa using List.find?_some hcounts
    rw [hcounts] at hlens
    cases hreads : items.find? fun v => v.numeric?.isNone with
    | none =>
      obtain ⟨x, hx⟩ := Option.isSome_iff_exists.1 (Value.isSome_of_find?_isNone hreads v hv)
      cases hnone.symm.trans (Value.toNumber?_of_numeric? hx)
    | some w =>
      rw [hreads] at hcalled
      refine ⟨fun _ => ?_, fun hbooleans => ?_, by rw [hlens], by rw [hcalled]⟩
      · rw [hlens, hcalled]
        exact .mismatch _ _ _
      · have hsome := hbooleans.1 v hv
        rw [hnone] at hsome
        cases hsome

theorem Step.sums_agree_on_text :
    let body : LensBody := ⟨"+", [.sum]⟩
    let packet : Packet := { value := .array [.number 1.0, .text " 2 "] }
    LensBody.read "+" = .ok body ∧
    ∃ op : Operator Unit, Core.library.operator? "reduce" = some op ∧
      ∀ (ctx : RunContext Unit) (node : Node) (r : Run Unit),
        SumsAgree ((applyLens ctx node .reduce body packet).outcome r).1
          (op.invoke none Caller.detached packet.value [.text "+"] ()).1 := by
  intro body packet
  have hsome : ((Core.library : Library Unit).operator? "reduce").isSome = true := rfl
  obtain ⟨op, hop⟩ := Option.isSome_iff_exists.1 hsome
  refine ⟨by cbv, op, hop, fun ctx node r => ?_⟩
  refine (sums_agree rfl rfl hop none Caller.detached () r).1 ?_
  rintro ⟨-, b, hb⟩
  simp at hb

/-- The lens takes `true` for one, and the operator does not take it. -/
theorem Step.sums_differ_on_true :
    let body : LensBody := ⟨"+", [.sum]⟩
    let packet : Packet := { value := .array [.bool true] }
    LensBody.read "+" = .ok body ∧
    ∃ op : Operator Unit, Core.library.operator? "reduce" = some op ∧
      ∀ (ctx : RunContext Unit) (node : Node) (r : Run Unit),
        ¬ SumsAgree ((applyLens ctx node .reduce body packet).outcome r).1
          (op.invoke none Caller.detached packet.value [.text "+"] ()).1 := by
  intro body packet
  have hsome : ((Core.library : Library Unit).operator? "reduce").isSome = true := rfl
  obtain ⟨op, hop⟩ := Option.isSome_iff_exists.1 hsome
  refine ⟨by cbv, op, hop, fun ctx node r hagree => ?_⟩
  have hlens : (applyLens ctx node .reduce body packet).outcome r = _ :=
    outcome_applyLens_sum rfl rfl r
  have hcalled := Core.invoke_reduce_plus hop none Caller.detached packet.value ()
  rw [hlens, outcome_addItems, hcalled] at hagree
  cases hagree

end Sluice
