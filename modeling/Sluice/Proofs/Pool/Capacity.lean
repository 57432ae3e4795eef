/-
  Sluice.Proofs.Pool.Capacity

  Pools are made one at a time, and each keeps a history of bounded length. Making a pool
  never changes the bound, and halts only where the bound leaves no room for a history.
-/

import Sluice.Pool

namespace Sluice.PoolStore

theorem write_capacity (store : PoolStore) (name : String) (value : Value) :
    (store.write name value).2.capacity = store.capacity := by
  unfold write
  split <;> rfl

/-- Making a pool keeps the capacity, and halts only where a history has no room. -/
def Makes (store : PoolStore) : Except Halt PoolStore → Prop
  | .ok store' => store'.capacity = store.capacity
  | .error h => h = .noRoom ∧ maxCapacity < store.capacity

theorem make_makes (store : PoolStore) (name : String) (pool : Pool) :
    store.Makes (store.make name pool) := by
  unfold make
  split
  · next hfull => exact ⟨rfl, hfull⟩
  · rfl

theorem ensure_makes (store : PoolStore) (name : String) :
    store.Makes (store.ensure name) := by
  unfold ensure
  split
  · rfl
  · exact store.make_makes name _

theorem subscribe_makes (store : PoolStore) (name : String) (pipeline : PipelineId) :
    store.Makes (store.subscribe name pipeline) := by
  unfold subscribe
  split
  · rfl
  · exact store.make_makes name _

theorem foldlM_makes {α : Type} {f : PoolStore → α → Except Halt PoolStore}
    (hf : ∀ (store : PoolStore) a, store.Makes (f store a)) (as : List α) (store : PoolStore) :
    store.Makes (as.foldlM f store) := by
  induction as generalizing store with
  | nil => rfl
  | cons a rest ih =>
    have h := hf store a
    rw [List.foldlM_cons]
    match hmade : f store a with
    | .error e =>
      rw [hmade] at h
      exact h
    | .ok store' =>
      rw [hmade] at h
      have hrest := ih store'
      show store.Makes (rest.foldlM f store')
      unfold Makes at h hrest ⊢
      rw [h] at hrest
      exact hrest

end Sluice.PoolStore
