/-
  Sluice.Pool

  Pools: named cells that a run writes and reads. A pool remembers its last values, counts
  its writes, and knows the pipelines that subscribe to it. The store keeps pools in name
  order; a pool is made by `declare`, or with null by `ensure`, and changed only by `write`
  and `subscribe`.

  A pool has room for its whole history from the start, so no pool can be made when its history
  would be larger than memory can be.
-/

import Sluice.Halt
import Sluice.Program.Node
import Sluice.Record

namespace Sluice

/-- A named cell. -/
structure Pool where
  value : Value
  /-- The last values, oldest first; the initial value is the first of all. -/
  history : List Value
  /-- Writes since the pool was made. -/
  updates : Nat
  /-- Pipelines that subscribe, in increasing order, each once. -/
  subscribers : List PipelineId

namespace Pool

/-- A pool with its initial value. -/
def ofInitial (initial : Value) : Pool :=
  ⟨initial, [initial], 0, []⟩

/-- Store a value; a history at its capacity loses its oldest entry. -/
def write (capacity : Nat) (pool : Pool) (value : Value) : Pool :=
  { pool with
    value
    history :=
      (if capacity ≤ pool.history.length then pool.history.tail else pool.history) ++ [value]
    updates := pool.updates + 1 }

/-- Add a pipeline at its place, once. -/
def insertPipeline (pipeline : PipelineId) : List PipelineId → List PipelineId
  | [] => [pipeline]
  | p :: rest =>
    if pipeline < p then pipeline :: p :: rest
    else if pipeline = p then p :: rest
    else p :: insertPipeline pipeline rest

/-- Subscribe a pipeline. -/
def subscribe (pool : Pool) (pipeline : PipelineId) : Pool :=
  { pool with subscribers := insertPipeline pipeline pool.subscribers }

end Pool

/-- The pools of a run. -/
structure PoolStore where
  /-- How many values a history holds; at least the current one. -/
  capacity : Nat
  pools : Record Pool := []

namespace PoolStore

/-- A store without pools. A capacity of zero counts as one. -/
def ofCapacity (capacity : Nat) : PoolStore :=
  { capacity := max capacity 1 }

/-- The pool of a name. -/
def get? (store : PoolStore) (name : String) : Option Pool :=
  store.pools.get? name

/-- Whether there is a pool of a name. -/
def contains (store : PoolStore) (name : String) : Bool :=
  store.pools.contains name

/-- The current value of a pool. -/
def value? (store : PoolStore) (name : String) : Option Value :=
  (store.get? name).map (·.value)

/-- The current value of every pool. -/
def values (store : PoolStore) : Record Value :=
  store.pools.mapContents (·.value)

/-- Replace a pool, or add it. -/
def put (store : PoolStore) (name : String) (pool : Pool) : PoolStore :=
  { store with pools := store.pools.set name pool }

/-- The largest capacity: a value takes 32 bytes, and memory ends at 2^63. -/
def maxCapacity : Nat := Nat.pow 2 58 - 1

/-- Add a new pool, if its history has room. -/
def make (store : PoolStore) (name : String) (pool : Pool) : Except Halt PoolStore :=
  if maxCapacity < store.capacity then .error .noRoom else .ok (store.put name pool)

/-- Make a pool with an initial value. One of the same name is made anew and keeps its
subscribers. -/
def declare (store : PoolStore) (name : String) (initial : Value) : Except Halt PoolStore :=
  store.make name
    { Pool.ofInitial initial with
      subscribers := ((store.get? name).map (·.subscribers)).getD [] }

/-- Make a pool with null if there is none of that name. -/
def ensure (store : PoolStore) (name : String) : Except Halt PoolStore :=
  if store.contains name then .ok store else store.make name (Pool.ofInitial .null)

/-- Subscribe a pipeline to a pool, which is made if it is missing. -/
def subscribe (store : PoolStore) (name : String) (pipeline : PipelineId) :
    Except Halt PoolStore :=
  match store.get? name with
  | some pool => .ok (store.put name (pool.subscribe pipeline))
  | none => store.make name ((Pool.ofInitial .null).subscribe pipeline)

/-- Write a value to a pool. The count of its writes is returned; without a pool of that name
nothing changes. -/
def write (store : PoolStore) (name : String) (value : Value) : Option Nat × PoolStore :=
  match store.get? name with
  | none => (none, store)
  | some pool =>
    let written := pool.write store.capacity value
    (some written.updates, store.put name written)

end PoolStore

end Sluice
