/-
  Sluice.Proofs.Pool.History

  A store after any requests. The pool of a name tells what was asked of it: it counts the writes
  since it was last made, holds the last of the values it has had since then, and knows every
  pipeline that ever subscribed to its name, also from before it was last made.

  The proof goes one request at a time. What a request does to the pool it names is one lemma each,
  and it does nothing to the others.
-/

import Mathlib.Data.List.Induction
import Sluice.Proofs.Pool.Capacity
import Sluice.Proofs.Pool.Writes

namespace Sluice

-- ============================================================================
-- Subscribers
-- ============================================================================

namespace Pool

theorem mem_insertPipeline {pipeline p : PipelineId} {pipelines : List PipelineId} :
    p ∈ insertPipeline pipeline pipelines ↔ p = pipeline ∨ p ∈ pipelines := by
  induction pipelines with
  | nil => simp [insertPipeline]
  | cons first rest ih =>
    unfold insertPipeline
    split
    · exact List.mem_cons
    · split
      · next heq =>
        subst heq
        simp
      · rw [List.mem_cons, ih, List.mem_cons]
        exact or_left_comm

/-- Subscribers stay in increasing order. -/
theorem pairwise_insertPipeline {pipelines : List PipelineId} (h : pipelines.Pairwise (· < ·))
    (pipeline : PipelineId) : (insertPipeline pipeline pipelines).Pairwise (· < ·) := by
  induction pipelines with
  | nil => exact List.pairwise_singleton _ _
  | cons first rest ih =>
    obtain ⟨hfirst, hrest⟩ := List.pairwise_cons.1 h
    unfold insertPipeline
    split
    · next hlt =>
      refine List.pairwise_cons.2 ⟨fun p hp => ?_, h⟩
      rcases List.mem_cons.1 hp with rfl | hp
      · exact hlt
      · exact Nat.lt_trans hlt (hfirst p hp)
    · next hge =>
      split
      · exact h
      · next hne =>
        refine List.pairwise_cons.2 ⟨fun p hp => ?_, ih hrest⟩
        rcases mem_insertPipeline.1 hp with rfl | hp
        · exact Nat.lt_of_le_of_ne (Nat.not_lt.1 hge) (Ne.symm hne)
        · exact hfirst p hp

end Pool

namespace PoolStore

-- ============================================================================
-- Requests
-- ============================================================================

/-- What can be asked of a store. -/
inductive Request where
  | declare (name : String) (initial : Value)
  | ensure (name : String)
  | subscribe (name : String) (pipeline : PipelineId)
  | write (name : String) (value : Value)

namespace Request

/-- The name that a request is about. -/
def pool : Request → String
  | declare name _ | ensure name | subscribe name _ | write name _ => name

/-- After the request there is a pool of its name; a write makes none. -/
def isMaking : Request → Bool
  | declare .. | ensure _ | subscribe .. => true
  | write .. => false

/-- The store after a request. -/
def serve (store : PoolStore) : Request → Except Halt PoolStore
  | declare name initial => store.declare name initial
  | ensure name => store.ensure name
  | subscribe name pipeline => store.subscribe name pipeline
  | write name value => .ok (store.write name value).2

end Request

/-- The store of a capacity after requests, in order. -/
def after (capacity : Nat) (requests : List Request) : Except Halt PoolStore :=
  requests.foldlM Request.serve (ofCapacity capacity)

/-- The values that requests write to a pool, in order. -/
def writesTo (name : String) (requests : List Request) : List Value :=
  requests.filterMap fun
    | .write other value => if other = name then some value else none
    | _ => none

/-- The pool of a name was last made, with an initial value, right before the requests `since`. -/
inductive LastMade (name : String) : List Request → Value → List Request → Prop
  /-- It was declared, and not declared again. -/
  | declared (before : List Request) {initial : Value} {since : List Request}
      (hlast : ∀ value, Request.declare name value ∉ since) :
      LastMade name (before ++ .declare name initial :: since) initial since
  /-- It was made with null by the first request for it, and never declared. -/
  | implied {before : List Request} {request : Request} {since : List Request}
      (hfirst : ∀ q ∈ before, q.pool = name → q.isMaking = false)
      (hmakes : request.pool = name ∧ request.isMaking = true)
      (hnever : ∀ value, Request.declare name value ∉ request :: since) :
      LastMade name (before ++ request :: since) .null since

end PoolStore

/-- A pool tells what was asked of it, if it was last made with `initial` right before `since`. -/
structure Pool.Tells (pool : Pool) (capacity : Nat) (name : String)
    (requests : List PoolStore.Request) (initial : Value) (since : List PoolStore.Request) :
    Prop where
  made : PoolStore.LastMade name requests initial since
  updates : pool.updates = (PoolStore.writesTo name since).length
  history : pool.history =
    lastOf (min (pool.updates + 1) (max capacity 1)) (initial :: PoolStore.writesTo name since)
  current : pool.history.getLast? = some pool.value
  ordered : pool.subscribers.Pairwise (· < ·)
  subscribers : ∀ pipeline, pipeline ∈ pool.subscribers ↔
    PoolStore.Request.subscribe name pipeline ∈ requests

namespace PoolStore

/-- What there is of a name after requests: nothing if no request makes its pool, and else a pool
that tells what was asked of it. -/
def Answers (capacity : Nat) (name : String) (requests : List Request) : Option Pool → Prop
  | none => ∀ q ∈ requests, q.pool = name → q.isMaking = false
  | some pool => ∃ initial since, pool.Tells capacity name requests initial since

-- ============================================================================
-- One request
-- ============================================================================

variable {store store' : PoolStore} {request : Request} {name : String} {capacity : Nat}
  {requests since : List Request} {initial : Value}

/-- What a request does to the pool that it names. -/
def Request.onPool (capacity : Nat) : Request → Option Pool → Option Pool
  | declare _ initial, old =>
    some { Pool.ofInitial initial with subscribers := (old.map (·.subscribers)).getD [] }
  | ensure _, old => some (old.getD (.ofInitial .null))
  | subscribe _ pipeline, old => some ((old.getD (.ofInitial .null)).subscribe pipeline)
  | write _ value, old => old.map fun pool => pool.write capacity value

/-- A request changes the pool that it names. -/
theorem get?_serve (h : request.serve store = .ok store') :
    store'.get? request.pool = request.onPool store.capacity (store.get? request.pool) := by
  cases request with
  | declare name initial =>
    rw [eq_put_of_make h]
    exact get?_put_self store name _
  | ensure name =>
    rcases ensure_cases h with ⟨hcontains, rfl⟩ | ⟨hmissing, rfl⟩
    · obtain ⟨pool, hpool⟩ := get?_isSome hcontains
      simp only [Request.pool, Request.onPool, hpool, Option.getD_some]
    · simp only [Request.pool, Request.onPool, hmissing, Option.getD_none]
      exact get?_put_self store name _
  | subscribe name pipeline =>
    unfold Request.serve PoolStore.subscribe at h
    simp only at h
    split at h
    · next pool hpool =>
      obtain rfl := Except.ok.inj h
      simp only [Request.pool, Request.onPool, hpool, Option.getD_some]
      exact get?_put_self store name _
    · next hmissing =>
      rw [eq_put_of_make h]
      simp only [Request.pool, Request.onPool, hmissing, Option.getD_none]
      exact get?_put_self store name _
  | write name value =>
    obtain rfl := Except.ok.inj h
    simp only [Request.pool, Request.onPool]
    match hpool : store.get? name with
    | none =>
      rw [PoolStore.write, hpool]
      exact hpool
    | some pool =>
      rw [write_of_get? hpool]
      exact get?_put_self store name _

/-- A request leaves the pools of other names alone. -/
theorem get?_serve_of_ne (h : request.serve store = .ok store') (hne : name ≠ request.pool) :
    store'.get? name = store.get? name := by
  cases request with
  | declare other initial =>
    rw [eq_put_of_make h]
    exact get?_put_of_ne hne store _
  | ensure other =>
    rcases ensure_cases h with ⟨-, rfl⟩ | ⟨-, rfl⟩
    · rfl
    · exact get?_put_of_ne hne store _
  | subscribe other pipeline =>
    unfold Request.serve PoolStore.subscribe at h
    simp only at h
    split at h
    · obtain rfl := Except.ok.inj h
      exact get?_put_of_ne hne store _
    · rw [eq_put_of_make h]
      exact get?_put_of_ne hne store _
  | write other value =>
    obtain rfl := Except.ok.inj h
    unfold PoolStore.write
    split
    · rfl
    · exact get?_put_of_ne hne store _

/-- A request keeps the capacity, and halts only where a history has no room. -/
theorem serve_makes (store : PoolStore) (request : Request) :
    store.Makes (request.serve store) := by
  cases request with
  | declare name initial => exact store.make_makes name _
  | ensure name => exact store.ensure_makes name
  | subscribe name pipeline => exact store.subscribe_makes name pipeline
  | write name value => exact store.write_capacity name value

/-- A pool that is not declared anew was last made when it was before. -/
theorem LastMade.concat (h : LastMade name requests initial since)
    (hrequest : ∀ value, request ≠ .declare name value) :
    LastMade name (requests ++ [request]) initial (since ++ [request]) := by
  have hlast : ∀ {since : List Request} value, Request.declare name value ∉ since →
      Request.declare name value ∉ since ++ [request] := by
    intro since value hsince hmem
    rcases List.mem_append.1 hmem with hold | hnew
    · exact hsince hold
    · exact hrequest value (List.mem_singleton.1 hnew).symm
  cases h with
  | declared before hdeclared =>
    rw [List.append_assoc]
    exact .declared before fun value => hlast value (hdeclared value)
  | implied hfirst hmakes hnever =>
    rw [List.append_assoc]
    exact .implied hfirst hmakes fun value => hlast value (hnever value)

theorem writesTo_concat (name : String) (requests : List Request) (request : Request) :
    writesTo name (requests ++ [request]) = writesTo name requests ++ writesTo name [request] :=
  List.filterMap_append

end PoolStore

/-- No more entries than there are. -/
theorem lastOf_min_length {α : Type} (n : Nat) (as : List α) :
    lastOf (min as.length n) as = lastOf n as := by
  unfold lastOf
  congr 1
  omega

namespace Pool.Tells

open PoolStore (Request writesTo LastMade)

variable {pool : Pool} {request : Request} {name : String} {capacity : Nat}
  {requests since : List Request} {initial : Value}

theorem history_eq (h : pool.Tells capacity name requests initial since) :
    pool.history = lastOf (max capacity 1) (initial :: writesTo name since) := by
  rw [h.history, h.updates, ← List.length_cons, lastOf_min_length]

/-- A pool that was just made, with the subscribers that its name has. -/
theorem start {subscribers : List PipelineId} (hmade : LastMade name requests initial [])
    (hordered : subscribers.Pairwise (· < ·))
    (hsubscribers : ∀ pipeline, pipeline ∈ subscribers ↔
      Request.subscribe name pipeline ∈ requests) :
    Tells { ofInitial initial with subscribers } capacity name requests initial [] where
  made := hmade
  updates := rfl
  history := by
    have hone : min (0 + 1) (max capacity 1) = 1 := by omega
    show [initial] = lastOf (min (0 + 1) (max capacity 1)) [initial]
    rw [hone]
    rfl
  current := rfl
  ordered := hordered
  subscribers := hsubscribers

/-- A request that neither declares the pool, nor writes it, nor subscribes to it. -/
theorem pass (h : pool.Tells capacity name requests initial since)
    (hdeclare : ∀ value, request ≠ .declare name value) (hwrite : writesTo name [request] = [])
    (hsubscribe : ∀ pipeline, request ≠ .subscribe name pipeline) :
    pool.Tells capacity name (requests ++ [request]) initial (since ++ [request]) := by
  have hwrites : writesTo name (since ++ [request]) = writesTo name since := by
    rw [PoolStore.writesTo_concat, hwrite, List.append_nil]
  refine ⟨h.made.concat hdeclare, ?_, ?_, h.current, h.ordered, fun pipeline => ?_⟩
  · rw [hwrites, h.updates]
  · rw [hwrites, h.history]
  · rw [h.subscribers, List.mem_append, List.mem_singleton]
    exact (or_iff_left (hsubscribe pipeline).symm).symm

theorem write (h : pool.Tells capacity name requests initial since) (value : Value) :
    (pool.write (max capacity 1) value).Tells capacity name (requests ++ [.write name value])
      initial (since ++ [.write name value]) := by
  have hwrites : writesTo name (since ++ [.write name value]) = writesTo name since ++ [value] := by
    rw [PoolStore.writesTo_concat]
    simp [writesTo]
  have hupdates : (pool.write (max capacity 1) value).updates =
      (writesTo name (since ++ [.write name value])).length := by
    rw [hwrites, List.length_append, ← h.updates]
    rfl
  refine ⟨h.made.concat (fun _ heq => by cases heq), hupdates, ?_, ?_, h.ordered,
    fun pipeline => ?_⟩
  · rw [hupdates, ← List.length_cons, lastOf_min_length, hwrites, ← List.cons_append,
      ← lastOf_concat (Nat.le_max_right capacity 1), ← h.history_eq]
    rfl
  · exact List.getLast?_concat
  · show pipeline ∈ pool.subscribers ↔ _
    rw [h.subscribers, List.mem_append, List.mem_singleton]
    exact (or_iff_left (fun heq => by cases heq)).symm

theorem subscribe (h : pool.Tells capacity name requests initial since) (pipeline : PipelineId) :
    (pool.subscribe pipeline).Tells capacity name (requests ++ [.subscribe name pipeline]) initial
      (since ++ [.subscribe name pipeline]) := by
  have hwrites : writesTo name (since ++ [.subscribe name pipeline]) = writesTo name since := by
    rw [PoolStore.writesTo_concat]
    exact List.append_nil _
  refine ⟨h.made.concat (fun _ heq => by cases heq), ?_, ?_, h.current,
    pairwise_insertPipeline h.ordered pipeline, fun p => ?_⟩
  · rw [hwrites, ← h.updates]
    rfl
  · rw [hwrites]
    exact h.history
  · show p ∈ insertPipeline pipeline pool.subscribers ↔ _
    rw [mem_insertPipeline, h.subscribers, List.mem_append, List.mem_singleton,
      Request.subscribe.injEq, or_comm]
    simp

end Pool.Tells

namespace PoolStore

variable {store store' : PoolStore} {request : Request} {name : String} {capacity : Nat}
  {requests : List Request} {old : Option Pool}

-- ============================================================================
-- All requests
-- ============================================================================

/-- Nobody subscribed to a pool that was never made. -/
theorem Answers.not_subscribed (h : Answers capacity name requests none) (pipeline : PipelineId) :
    Request.subscribe name pipeline ∉ requests :=
  fun hmem => Bool.false_ne_true (h _ hmem rfl).symm

/-- A pool that is made where there was none begins with null. -/
theorem Answers.start (h : Answers capacity request.pool requests none)
    (hmakes : request.isMaking = true) (hdeclare : ∀ value, request ≠ .declare request.pool value)
    (subscribers : List PipelineId) (hordered : subscribers.Pairwise (· < ·))
    (hsubscribers : ∀ pipeline, pipeline ∈ subscribers ↔
      request = .subscribe request.pool pipeline) :
    Answers capacity request.pool (requests ++ [request])
      (some { Pool.ofInitial .null with subscribers }) := by
  have hmade : LastMade request.pool (requests ++ [request]) .null [] := by
    refine .implied h ⟨rfl, hmakes⟩ fun value hmem => ?_
    exact hdeclare value (List.mem_singleton.1 hmem).symm
  refine ⟨.null, [], .start hmade hordered fun pipeline => ?_⟩
  rw [hsubscribers, List.mem_append, List.mem_singleton, eq_comm]
  exact (or_iff_right (h.not_subscribed pipeline)).symm

/-- The pool that a request names tells of it. -/
theorem Answers.serve (h : Answers capacity request.pool requests old) :
    Answers capacity request.pool (requests ++ [request])
      (request.onPool (max capacity 1) old) := by
  cases request with
  | declare name initial =>
    have hmade : LastMade name (requests ++ [.declare name initial]) initial [] :=
      .declared requests fun _ hmem => by cases hmem
    have hmem : ∀ pipeline, Request.subscribe name pipeline ∈ requests ++ [.declare name initial] ↔
        Request.subscribe name pipeline ∈ requests := by
      intro pipeline
      rw [List.mem_append, List.mem_singleton]
      exact or_iff_left fun heq => by cases heq
    cases old with
    | none =>
      refine ⟨initial, [], .start hmade List.Pairwise.nil fun pipeline => ?_⟩
      refine Iff.trans ?_ (hmem pipeline).symm
      exact iff_of_false List.not_mem_nil (h.not_subscribed pipeline)
    | some pool =>
      obtain ⟨_, _, htells⟩ := h
      refine ⟨initial, [], .start hmade htells.ordered fun pipeline => ?_⟩
      exact (htells.subscribers pipeline).trans (hmem pipeline).symm
  | ensure name =>
    cases old with
    | none =>
      refine h.start rfl (fun _ heq => by cases heq) [] .nil fun pipeline => ?_
      exact iff_of_false List.not_mem_nil fun heq => by cases heq
    | some pool =>
      obtain ⟨initial, since, htells⟩ := h
      exact ⟨initial, _, htells.pass (fun _ heq => by cases heq) rfl fun _ heq => by cases heq⟩
  | subscribe name pipeline =>
    cases old with
    | none =>
      refine h.start rfl (fun _ heq => by cases heq) [pipeline] (List.pairwise_singleton _ _)
        fun p => ?_
      rw [List.mem_singleton, Request.pool, Request.subscribe.injEq, eq_comm]
      exact (and_iff_right rfl).symm
    | some pool =>
      obtain ⟨initial, since, htells⟩ := h
      exact ⟨initial, _, htells.subscribe pipeline⟩
  | write name value =>
    cases old with
    | none =>
      intro q hq hname
      rcases List.mem_append.1 hq with hold | hnew
      · exact h q hold hname
      · obtain rfl := List.mem_singleton.1 hnew
        rfl
    | some pool =>
      obtain ⟨initial, since, htells⟩ := h
      exact ⟨initial, _, htells.write value⟩

/-- A request says nothing about the pools of other names. -/
theorem Answers.pass (h : Answers capacity name requests old) (hne : name ≠ request.pool) :
    Answers capacity name (requests ++ [request]) old := by
  cases old with
  | none =>
    intro q hq hname
    rcases List.mem_append.1 hq with hold | hnew
    · exact h q hold hname
    · obtain rfl := List.mem_singleton.1 hnew
      exact absurd hname.symm hne
  | some pool =>
    obtain ⟨initial, since, htells⟩ := h
    refine ⟨initial, _, htells.pass (fun _ heq => ?_) ?_ fun _ heq => ?_⟩
    · exact hne (congrArg Request.pool heq).symm
    · cases request with
      | write other value => simp [writesTo, show other ≠ name from Ne.symm hne]
      | declare _ _ | ensure _ | subscribe _ _ => rfl
    · exact hne (congrArg Request.pool heq).symm

theorem after_concat (capacity : Nat) (requests : List Request) (request : Request) :
    after capacity (requests ++ [request]) = after capacity requests >>= request.serve := by
  rw [after, List.foldlM_append]
  simp [after]

/-- Requests keep the capacity, and halt only where a history has no room. -/
theorem after_makes (capacity : Nat) (requests : List Request) :
    (ofCapacity capacity).Makes (after capacity requests) :=
  foldlM_makes serve_makes requests (ofCapacity capacity)

/-- Every name has the pool that the requests make of it. -/
theorem answers_after (h : after capacity requests = .ok store) (name : String) :
    Answers capacity name requests (store.get? name) := by
  induction requests using List.reverseRecOn generalizing store with
  | nil =>
    obtain rfl := Except.ok.inj h
    exact fun _ hq => by cases hq
  | append_singleton before request ih =>
    have hcapacity := after_makes capacity before
    rw [after_concat] at h
    match hbefore : after capacity before with
    | .error halt =>
      rw [hbefore] at h
      cases h
    | .ok earlier =>
      rw [hbefore] at h hcapacity
      have hserve : request.serve earlier = .ok store := h
      have hcapacity' : earlier.capacity = max capacity 1 := hcapacity
      by_cases hname : name = request.pool
      · subst hname
        rw [get?_serve hserve, hcapacity']
        exact (ih hbefore).serve
      · rw [get?_serve_of_ne hserve hname]
        exact (ih hbefore).pass hname

/-- Pools after any requests. Only a capacity beyond what memory holds can halt them. Else there are
exactly the pools that were made, and each counts its writes since it was last made, holds the last
values from its initial one on, the current one last, and has as subscribers all pipelines that
ever subscribed to its name. A write to a name without a pool has no answer and changes nothing,
and no request changes the pool of a name that it is not about. -/
theorem pools_tell_requests (capacity : Nat) (requests : List Request) :
    match after capacity requests with
    | .error halt => halt = .noRoom ∧ maxCapacity < capacity
    | .ok store =>
      (∀ name, Answers capacity name requests (store.get? name)) ∧
      (∀ name value, store.get? name = none → store.write name value = (none, store)) ∧
      ∀ (request : Request) (store' : PoolStore), request.serve store = .ok store' →
        ∀ name, name ≠ request.pool → store'.get? name = store.get? name := by
  have hmakes := after_makes capacity requests
  match hafter : after capacity requests with
  | .error halt =>
    rw [hafter] at hmakes
    obtain ⟨rfl, hfull⟩ : halt = .noRoom ∧ maxCapacity < max capacity 1 := hmakes
    have hone : 1 ≤ maxCapacity := by decide
    exact ⟨rfl, by omega⟩
  | .ok store =>
    refine ⟨answers_after hafter, fun name value hmissing => ?_, fun _ _ hserve _ => ?_⟩
    · rw [PoolStore.write, hmissing]
    · exact get?_serve_of_ne hserve

-- A pool that is declared anew loses its history and keeps its subscribers.
example :
    (after 2 [.subscribe "p" 3, .write "p" (.text "a"), .declare "p" (.text "b"),
      .write "p" (.text "c"), .write "q" .null, .write "p" (.text "d")]).map
        (fun store => (store.get? "p", store.get? "q")) =
      .ok (some ⟨.text "d", [.text "c", .text "d"], 2, [3]⟩, none) := rfl

end PoolStore

end Sluice
