/-
  Sluice.Proofs.Pool.Writes

  What making and writing a pool does to a store. A pool is made with its initial value as its
  history and no writes; a write adds one to the writes of its pool and an entry to the end of
  its history, which is kept to the last entries that fit.
-/

import Sluice.Pool
import Sluice.Proofs.Record

namespace Sluice

namespace Pool

/-- A pool that nothing was written to. -/
def Fresh (pool : Pool) : Prop :=
  pool.history = [pool.value] ∧ pool.updates = 0

end Pool

/-- The last entries of a list. -/
def lastOf {α : Type} (n : Nat) (as : List α) : List α :=
  as.drop (as.length - n)

/-- A list that is kept to its last entries at every step is the last entries of all. -/
theorem lastOf_concat {α : Type} {n : Nat} (hn : 0 < n) (as : List α) (a : α) :
    (if n ≤ (lastOf n as).length then (lastOf n as).tail else lastOf n as) ++ [a] =
      lastOf n (as ++ [a]) := by
  have hlength : (lastOf n as).length = min n as.length := by
    rw [lastOf, List.length_drop]
    omega
  rw [hlength, lastOf, lastOf, List.length_append, List.length_singleton]
  split
  · next hfull =>
    rw [List.tail_drop, List.drop_append_of_le_length (by omega)]
    congr 2
    omega
  · next hroom =>
    rw [List.drop_append_of_le_length (by omega)]
    congr 2
    omega

namespace PoolStore

variable {store store' : PoolStore} {name other : String}

theorem get?_put_self (store : PoolStore) (name : String) (pool : Pool) :
    (store.put name pool).get? name = some pool :=
  Record.get?_set_self name pool store.pools

theorem get?_put_of_ne (h : other ≠ name) (store : PoolStore) (pool : Pool) :
    (store.put name pool).get? other = store.get? other :=
  Record.get?_set_of_ne h pool store.pools

theorem get?_isSome (h : store.contains name = true) : ∃ pool, store.get? name = some pool :=
  Option.isSome_iff_exists.1 h

theorem eq_put_of_make {pool : Pool} (h : store.make name pool = .ok store') :
    store' = store.put name pool := by
  unfold make at h
  split at h
  · cases h
  · exact (Except.ok.inj h).symm

/-- A pool that is missing is made with null. -/
theorem ensure_cases (h : store.ensure name = .ok store') :
    store.contains name = true ∧ store' = store ∨
      store.get? name = none ∧ store' = store.put name (.ofInitial .null) := by
  unfold ensure at h
  split at h
  · next hcontains => exact .inl ⟨hcontains, (Except.ok.inj h).symm⟩
  · next hmissing => exact .inr ⟨Option.not_isSome_iff_eq_none.1 hmissing, eq_put_of_make h⟩

theorem contains_of_ensure (h : store.ensure name = .ok store') : store'.contains name = true := by
  rcases ensure_cases h with ⟨hcontains, rfl⟩ | ⟨-, rfl⟩
  · exact hcontains
  · rw [contains, Record.contains]
    exact Option.isSome_iff_exists.2 ⟨_, get?_put_self store name _⟩

theorem write_of_get? {pool : Pool} (h : store.get? name = some pool) (value : Value) :
    store.write name value = (some (pool.updates + 1),
      store.put name (pool.write store.capacity value)) := by
  rw [write, h]
  rfl

-- ============================================================================
-- The names of pools
-- ============================================================================

theorem contains_put (store : PoolStore) (name other : String) (pool : Pool) :
    (store.put name pool).contains other = (decide (other = name) || store.contains other) :=
  Record.contains_set name other pool store.pools

theorem contains_declare {initial : Value} (h : store.declare name initial = .ok store')
    (other : String) :
    store'.contains other = (decide (other = name) || store.contains other) := by
  rw [eq_put_of_make h, contains_put]

theorem contains_subscribe {pipeline : PipelineId} (h : store.subscribe name pipeline = .ok store')
    (other : String) :
    store'.contains other = (decide (other = name) || store.contains other) := by
  unfold subscribe at h
  split at h
  · rw [← Except.ok.inj h, contains_put]
  · rw [eq_put_of_make h, contains_put]

/-- A write leaves the names of pools as they are. -/
theorem contains_write (store : PoolStore) (name other : String) (value : Value) :
    (store.write name value).2.contains other = store.contains other := by
  match hget : store.get? name with
  | none => rw [write, hget]
  | some pool =>
    rw [write_of_get? hget, contains_put]
    by_cases h : other = name
    · subst h
      have hcontains : store.contains other = true := Option.isSome_iff_exists.2 ⟨pool, hget⟩
      rw [hcontains, Bool.or_true]
    · rw [decide_eq_false h, Bool.false_or]

/-- Requests that each make a pool, or find it, make or find all of them. -/
theorem contains_foldlM {α : Type} {f : PoolStore → α → Except Halt PoolStore} (pool : α → String)
    (hf : ∀ {store store' : PoolStore} {a}, f store a = .ok store' → ∀ other,
      store'.contains other = (decide (other = pool a) || store.contains other))
    {as : List α} (h : as.foldlM f store = .ok store') (other : String) :
    store'.contains other = true ↔ (∃ a ∈ as, pool a = other) ∨ store.contains other = true := by
  induction as generalizing store with
  | nil =>
    obtain rfl := Except.ok.inj h
    simp
  | cons a rest ih =>
    rw [List.foldlM_cons] at h
    match hmade : f store a with
    | .error e =>
      rw [hmade] at h
      cases h
    | .ok made =>
      rw [hmade] at h
      -- Once the first request is served, its pool is among those that were there before.
      rw [ih h, hf hmade other, Bool.or_eq_true, decide_eq_true_iff]
      simp only [List.mem_cons, exists_eq_or_imp]
      grind

-- ============================================================================
-- Stores at the start
-- ============================================================================

/-- A store in key order, with pools that nothing was written to. -/
structure Untouched (store : PoolStore) : Prop where
  ordered : store.pools.Ordered
  fresh : ∀ e ∈ store.pools, e.2.Fresh

theorem Untouched.ofCapacity (capacity : Nat) : (ofCapacity capacity).Untouched :=
  ⟨List.Pairwise.nil, fun e he => by cases he⟩

theorem Untouched.put {pool : Pool} (h : store.Untouched) (hpool : pool.Fresh) (name : String) :
    (store.put name pool).Untouched := by
  refine ⟨h.ordered.set name pool, fun e he => ?_⟩
  rcases Record.mem_set he with rfl | hold
  · exact hpool
  · exact h.fresh e hold

theorem Untouched.declare (h : store.Untouched) {initial : Value}
    (hdeclare : store.declare name initial = .ok store') : store'.Untouched := by
  rw [eq_put_of_make hdeclare]
  exact h.put ⟨rfl, rfl⟩ name

theorem Untouched.subscribe (h : store.Untouched) {pipeline : PipelineId}
    (hsubscribe : store.subscribe name pipeline = .ok store') : store'.Untouched := by
  unfold PoolStore.subscribe at hsubscribe
  split at hsubscribe
  · next pool hpool =>
    obtain rfl := Except.ok.inj hsubscribe
    have hfresh : (pool.subscribe pipeline).Fresh := h.fresh _ (Record.mem_of_get? hpool)
    exact h.put hfresh name
  · rw [eq_put_of_make hsubscribe]
    exact h.put ⟨rfl, rfl⟩ name

theorem Untouched.foldlM {α : Type} {f : PoolStore → α → Except Halt PoolStore}
    (hf : ∀ {store store' : PoolStore} {a}, store.Untouched → f store a = .ok store' →
      store'.Untouched) {as : List α} (h : store.Untouched)
    (hfold : as.foldlM f store = .ok store') : store'.Untouched := by
  induction as generalizing store with
  | nil =>
    obtain rfl := Except.ok.inj hfold
    exact h
  | cons a rest ih =>
    rw [List.foldlM_cons] at hfold
    match hmade : f store a with
    | .error e =>
      rw [hmade] at hfold
      cases hfold
    | .ok made =>
      rw [hmade] at hfold
      exact ih (hf h hmade) hfold

/-- The writes to all pools. -/
def totalUpdates (store : PoolStore) : Nat :=
  store.pools.total (·.updates)

theorem Untouched.totalUpdates_eq (h : store.Untouched) : store.totalUpdates = 0 := by
  refine List.sum_eq_zero_iff_forall_eq_nat.2 fun n hn => ?_
  obtain ⟨pool, hpool, rfl⟩ := List.mem_map.1 hn
  obtain ⟨e, he, rfl⟩ := List.mem_map.1 hpool
  exact (h.fresh e he).2

end PoolStore

end Sluice
