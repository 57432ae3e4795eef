/-
  Sluice.Proofs.Value.Sorting

  The order by which arrays are sorted. It is read off three keys of a value, one after the other:
  the place of its type, a number (for numbers and booleans), and a text (for anything else). Each
  key lies in a total order, so the order of values is a total preorder, whatever their types
  (`sortOrder_eq`).

  Main statement: sorting gives an array with the same elements, in order, in which equal elements
  stand as they stood before, and sorting it again changes nothing.
-/

import Mathlib.Data.List.Pairwise
import Sluice.Operator.Core

namespace Sluice

-- ============================================================================
-- Stable sorting
-- ============================================================================

section

variable {α : Type} {le : α → α → Bool}

/-- Elements that may stand in any order keep the order in which they stand. -/
theorem filter_mergeSort (htrans : ∀ a b c, le a b = true → le b c = true → le a c = true)
    (htotal : ∀ a b, (le a b || le b a) = true) {p : α → Bool}
    (hp : ∀ a b, p a = true → p b = true → le a b = true) (l : List α) :
    (l.mergeSort le).filter p = l.filter p := by
  have hpairwise : (l.filter p).Pairwise fun a b => le a b = true := by
    apply List.pairwise_of_forall_mem_list
    intro a ha b hb
    exact hp a b (List.mem_filter.1 ha).2 (List.mem_filter.1 hb).2
  have hsublist : (l.filter p).Sublist (l.mergeSort le) :=
    List.sublist_mergeSort htrans htotal hpairwise List.filter_sublist
  have hfiltered : (l.filter p).Sublist ((l.mergeSort le).filter p) := by
    have hsame := hsublist.filter p
    simpa only [List.filter_filter, Bool.and_self] using hsame
  have hlength : ((l.mergeSort le).filter p).length = (l.filter p).length :=
    ((List.mergeSort_perm l le).filter p).length_eq
  exact (hfiltered.eq_of_length hlength.symm).symm

end

-- ============================================================================
-- The order of values
-- ============================================================================

namespace Core

/-- Place of a number or a boolean among those of its type. -/
def numberKey : Value → Int
  | .number x => Number.totalKey x
  | .bool b => if b then 1 else 0
  | _ => 0

/-- What any other value is ordered by among those of its type. -/
def textKey : Value → String
  | .number _ | .bool _ => ""
  | .text s => s
  | v => v.render

/-- Comparison of the keys of values, one after the other. -/
def compareKeys : Value → Value → Ordering :=
  compareLex (compareOn typeRank) (compareLex (compareOn numberKey) (compareOn textKey))

/-- Values are ordered by their keys: of values of two types already the first keys differ. -/
theorem sortOrder_eq : sortOrder = compareKeys := by
  funext a b
  cases a with
  | number x =>
    cases b with
    | number y =>
      show compare _ _ = (compare (Number.totalKey x) (Number.totalKey y)).then .eq
      rw [Ordering.then_eq]
    | null | bool _ | text _ | array _ | object _ => rfl
  | bool p =>
    cases b with
    | bool q => cases p <;> cases q <;> rfl
    | null | number _ | text _ | array _ | object _ => rfl
  | null | text _ | array _ | object _ => cases b <;> rfl

instance : Std.TransCmp sortOrder := by
  rw [sortOrder_eq]
  unfold compareKeys
  infer_instance

theorem sortOrder_swap (a b : Value) : sortOrder b a = (sortOrder a b).swap :=
  Std.OrientedCmp.eq_swap

/-- Whether two elements may stand side by side. -/
def sortLE (a b : Value) : Bool :=
  (sortOrder a b).isLE

theorem sortLE_trans (a b c : Value) (hab : sortLE a b = true) (hbc : sortLE b c = true) :
    sortLE a c = true :=
  Std.TransCmp.isLE_trans hab hbc

theorem sortLE_total (a b : Value) : (sortLE a b || sortLE b a) = true := by
  unfold sortLE
  rw [sortOrder_swap a b]
  cases sortOrder a b <;> rfl

theorem sort_array (items : List Value) (args : Arguments) :
    sort (.array items) args = .ok (.array (items.mergeSort sortLE)) := by
  have hle : (fun a b => sortOrder a b != .gt) = sortLE := by
    funext a b
    unfold sortLE
    cases sortOrder a b <;> rfl
  show Except.ok (Value.array (items.mergeSort fun a b => sortOrder a b != .gt)) = _
  rw [hle]

/-- Sorting is stable, by a total preorder. The order is reflexive, total and transitive on all
values; a sorted array has the same elements, each at most the next, those equal to any value in
the order in which they stood, and is not changed by sorting it again. -/
theorem sort_is_stable :
    (∀ a, sortOrder a a = .eq) ∧
    (∀ a b, sortOrder b a = (sortOrder a b).swap) ∧
    (∀ a b, (sortOrder a b).isLE = true ∨ (sortOrder b a).isLE = true) ∧
    (∀ a b c, (sortOrder a b).isLE = true → (sortOrder b c).isLE = true →
      (sortOrder a c).isLE = true) ∧
    ∀ items args, ∃ sorted,
      sort (.array items) args = .ok (.array sorted) ∧
      sorted.Perm items ∧
      sorted.Pairwise (fun a b => (sortOrder a b).isLE = true) ∧
      (∀ v, sorted.filter (fun a => sortOrder a v == .eq) =
        items.filter fun a => sortOrder a v == .eq) ∧
      sort (.array sorted) args = .ok (.array sorted) := by
  refine ⟨fun a => Std.ReflCmp.compare_self, sortOrder_swap,
    fun a b => Bool.or_eq_true_iff.1 (sortLE_total a b), sortLE_trans, fun items args => ?_⟩
  have hsorted := List.pairwise_mergeSort sortLE_trans sortLE_total items
  refine ⟨items.mergeSort sortLE, sort_array items args, List.mergeSort_perm items sortLE, hsorted,
    fun v => ?_, ?_⟩
  · -- Two elements that are equal to a third are equal to each other.
    refine filter_mergeSort sortLE_trans sortLE_total (fun a b ha hb => ?_) items
    have hab : sortOrder a b = .eq :=
      Std.TransCmp.eq_trans (beq_iff_eq.1 ha) (Std.OrientedCmp.eq_symm (beq_iff_eq.1 hb))
    exact Ordering.isLE_of_eq_eq hab
  · rw [sort_array, List.mergeSort_of_pairwise hsorted]

end Core

end Sluice
