/-
  Sluice.Proofs.Record

  Records in key order. Setting an entry keeps the order, and as no key stands twice it changes a
  total over all entries by what the entry itself changes. Such a record is what its keys give.
-/

import Mathlib.Algebra.GroupWithZero.Nat
import Mathlib.Data.List.Induction
import Mathlib.Data.List.Sort
import Mathlib.Data.String.Basic
import Sluice.Record

namespace Sluice.Record

variable {α β : Type} {record : Record α} {key : String}

theorem get?_eq_none_of_lt (h : ∀ e ∈ record, key < e.1) : record.get? key = none := by
  induction record with
  | nil => rfl
  | cons e rest ih =>
    obtain ⟨hlt, hrest⟩ := List.forall_mem_cons.1 h
    rw [get?, if_neg (ne_of_gt hlt)]
    exact ih hrest

theorem mem_of_get? {value : α} (h : record.get? key = some value) : (key, value) ∈ record := by
  induction record with
  | nil => cases h
  | cons e rest ih =>
    obtain ⟨k, v⟩ := e
    rw [get?] at h
    split at h
    · next hkey =>
      cases h
      rw [hkey]
      exact List.mem_cons_self
    · exact List.mem_cons_of_mem _ (ih h)

theorem get?_of_mem (h : record.Ordered) {value : α} (hmem : (key, value) ∈ record) :
    record.get? key = some value := by
  induction record with
  | nil => cases hmem
  | cons e rest ih =>
    obtain ⟨k, v⟩ := e
    obtain ⟨hfirst, hrest⟩ := List.pairwise_cons.1 h
    rcases List.mem_cons.1 hmem with heq | hmem
    · cases heq
      rw [get?, if_pos rfl]
    · rw [get?, if_neg (ne_of_lt (hfirst _ hmem))]
      exact ih hrest hmem

/-- Records in key order are the same if all keys have the same entries. -/
theorem Ordered.ext {record' : Record α} (h : record.Ordered) (h' : record'.Ordered)
    (hget : ∀ key, record.get? key = record'.get? key) : record = record' := by
  have hirrefl : Std.Irrefl fun a b : String × α => a.1 < b.1 := ⟨fun a => lt_irrefl a.1⟩
  have hantisymm : Std.Antisymm fun a b : String × α => a.1 < b.1 :=
    ⟨fun a b hlt hgt => absurd hgt (lt_asymm hlt)⟩
  refine List.Pairwise.eq_of_mem_iff h h' fun e => ⟨fun he => ?_, fun he => ?_⟩
  · exact mem_of_get? ((hget e.1).symm.trans (get?_of_mem h he))
  · exact mem_of_get? ((hget e.1).trans (get?_of_mem h' he))

theorem mem_set {value : α} {e : String × α} (h : e ∈ record.set key value) :
    e = (key, value) ∨ e ∈ record := by
  induction record with
  | nil => exact .inl (List.mem_singleton.1 h)
  | cons first rest ih =>
    obtain ⟨k, v⟩ := first
    rw [set] at h
    split at h
    · exact List.mem_cons.1 h
    · split at h
      · exact (List.mem_cons.1 h).imp_right (List.mem_cons_of_mem _)
      · rcases List.mem_cons.1 h with rfl | hrest
        · exact .inr List.mem_cons_self
        · exact (ih hrest).imp_right (List.mem_cons_of_mem _)

/-- Of two entries under one key the later one is left. -/
theorem set_set (key : String) (value value' : α) (record : Record α) :
    (record.set key value).set key value' = record.set key value' := by
  induction record with
  | nil => simp [set]
  | cons first rest ih =>
    obtain ⟨k, v⟩ := first
    by_cases hlt : key < k
    · simp [set, hlt]
    · by_cases hkey : k = key
      · simp [set, hkey]
      · simp [set, hlt, hkey, ih]

theorem contains_set (key other : String) (value : α) (record : Record α) :
    (record.set key value).contains other = (decide (other = key) || record.contains other) := by
  unfold contains
  by_cases h : other = key
  · rw [h, get?_set_self, decide_eq_true rfl]
    rfl
  · rw [get?_set_of_ne h, decide_eq_false h, Bool.false_or]

/-- A key has an entry exactly if one stands under it. -/
theorem contains_iff_mem : record.contains key = true ↔ ∃ e ∈ record, e.1 = key := by
  constructor
  · intro h
    obtain ⟨value, hvalue⟩ := Option.isSome_iff_exists.1 h
    exact ⟨_, mem_of_get? hvalue, rfl⟩
  · rintro ⟨e, he, rfl⟩
    induction record with
    | nil => cases he
    | cons first rest ih =>
      unfold contains get?
      split
      · rfl
      · next hne =>
        rcases List.mem_cons.1 he with rfl | hrest
        · exact absurd rfl hne
        · exact ih hrest

/-- Setting an entry keeps the order. -/
theorem Ordered.set (h : record.Ordered) (key : String) (value : α) :
    (record.set key value).Ordered := by
  induction record with
  | nil => exact List.pairwise_singleton _ _
  | cons e rest ih =>
    obtain ⟨k, v⟩ := e
    obtain ⟨hfirst, hrest⟩ := List.pairwise_cons.1 h
    rw [Record.set]
    split
    · next hlt =>
      refine List.pairwise_cons.2 ⟨fun e he => ?_, h⟩
      rcases List.mem_cons.1 he with rfl | hmem
      · exact hlt
      · exact lt_trans hlt (hfirst e hmem)
    · next hlt =>
      split
      · next hkey =>
        subst hkey
        exact List.pairwise_cons.2 ⟨hfirst, hrest⟩
      · next hkey =>
        have hgt : k < key := lt_of_le_of_ne (not_lt.1 hlt) hkey
        refine List.pairwise_cons.2 ⟨fun e he => ?_, ih hrest⟩
        rcases mem_set he with rfl | hmem
        · exact hgt
        · exact hfirst e hmem

/-- Of the entries of a list the last one under a key is left. -/
theorem get?_ofEntries (entries : List (String × α)) (key : String) :
    (ofEntries entries).get? key = (entries.reverse.find? fun e => e.1 == key).map (·.2) := by
  induction entries using List.reverseRecOn with
  | nil => rfl
  | append_singleton entries e ih =>
    have hset : ofEntries (entries ++ [e]) = (ofEntries entries).set e.1 e.2 := by
      rw [ofEntries, List.foldl_append]
      rfl
    rw [hset, List.reverse_concat, List.find?_cons]
    by_cases hkey : e.1 = key
    · rw [hkey, get?_set_self, beq_self_eq_true]
      rfl
    · rw [get?_set_of_ne (Ne.symm hkey), ih, beq_false_of_ne hkey]

theorem ordered_ofEntries (entries : List (String × α)) : (ofEntries entries).Ordered := by
  induction entries using List.reverseRecOn with
  | nil => exact List.Pairwise.nil
  | append_singleton entries e ih =>
    rw [ofEntries, List.foldl_append]
    exact Ordered.set ih e.1 e.2

/-- The sum of a number over all entries. -/
def total (f : α → Nat) (record : Record α) : Nat :=
  (record.contents.map f).sum

/-- An entry that is set replaces its share of a total. -/
theorem total_set (h : record.Ordered) (f : α → Nat) (key : String) (value : α) :
    (record.set key value).total f + ((record.get? key).map f).getD 0 =
      record.total f + f value := by
  induction record with
  | nil => exact Nat.add_comm _ _
  | cons e rest ih =>
    obtain ⟨k, v⟩ := e
    obtain ⟨hfirst, hrest⟩ := List.pairwise_cons.1 h
    rw [set]
    split
    · next hlt =>
      have hnone : Record.get? key ((k, v) :: rest) = none := by
        refine get?_eq_none_of_lt (List.forall_mem_cons.2 ⟨hlt, fun e he => ?_⟩)
        exact lt_trans hlt (hfirst e he)
      rw [hnone]
      exact Nat.add_comm (f value) _
    · split
      · next hkey =>
        rw [get?, if_pos hkey]
        show f value + total f rest + f v = f v + total f rest + f value
        omega
      · next hkey =>
        rw [get?, if_neg hkey]
        have hset := ih hrest
        show f v + total f (Record.set key value rest) + _ = f v + total f rest + f value
        omega

theorem get?_mapContents (f : α → β) (record : Record α) (key : String) :
    (record.mapContents f).get? key = (record.get? key).map f := by
  induction record with
  | nil => rfl
  | cons e rest ih =>
    obtain ⟨k, v⟩ := e
    show (if k = key then some (f v) else get? key (mapContents f rest)) = _
    rw [ih, get?]
    split <;> rfl

theorem mapContents_set (f : α → β) (record : Record α) (key : String) (value : α) :
    (record.set key value).mapContents f = (record.mapContents f).set key (f value) := by
  induction record with
  | nil => rfl
  | cons e rest ih =>
    obtain ⟨k, v⟩ := e
    show mapContents f (if key < k then (key, value) :: (k, v) :: rest
      else if k = key then (key, value) :: rest else (k, v) :: set key value rest) =
      if key < k then (key, f value) :: (k, f v) :: mapContents f rest
      else if k = key then (key, f value) :: mapContents f rest
      else (k, f v) :: set key (f value) (mapContents f rest)
    rw [← ih]
    split
    · rfl
    · split <;> rfl

end Sluice.Record
