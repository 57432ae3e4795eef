/-
  Sluice.Proofs.Run.Grammar

  The grammar of what an observer hears of a run.

  A run of a pipeline is a start, then any number of printed lines, rendered values and pool
  writes, then one end. A pool write is followed at once by its fan: for each subscription on
  the pool, in order, a complete run of its pipeline one level deeper, or, below the deepest
  level, one lone failure. A run of a program is a run of every finite source, the activation
  of every live source, and a run of every subscription, in this order and each in plan order.

  A run of the grammar is not only of the right shape: some state of the machine tells it.
-/

import Sluice.Proofs.Run.Outcome

namespace Sluice

variable {σ : Type}

/-- A part of a run tells a word: from some state it ends and adds the word to the events. -/
def Exec.Tells (m : Exec σ Unit) (word : List Event) : Prop :=
  ∃ r r', m.outcome r = (.ok (), r') ∧ r'.events.toList = r.events.toList ++ word

/-- The event that ends a run of a pipeline. -/
inductive Event.Closes (pipeline : PipelineId) : Event → Prop where
  | completed (value : Value) : Closes pipeline (.completed pipeline value)
  | failed (failure : Failure) : Closes pipeline (.failed pipeline failure)

mutual

/-- A complete run of the pipeline at a root, `depth` levels below a run of its own. -/
inductive RunWord (ctx : RunContext σ) : Nat → NodeId → Option Value → List Event → Prop where
  | of {depth : Nat} {root : NodeId} {seed : Option Value} {items : List Event} {last : Event} :
    ItemsWord ctx depth items → last.Closes (ctx.pipelineOf root) →
    (Exec.runNested ctx (ctx.config.maxSubscriberDepth - depth) root seed).Tells
      (.started (ctx.pipelineOf root) root :: (items ++ [last])) →
    RunWord ctx depth root seed (.started (ctx.pipelineOf root) root :: (items ++ [last]))

/-- What a run tells between its start and its end. -/
inductive ItemsWord (ctx : RunContext σ) : Nat → List Event → Prop where
  | nil {depth : Nat} : ItemsWord ctx depth []
  | printed {depth : Nat} {rest : List Event} (pipeline : PipelineId) (text : String) :
    ItemsWord ctx depth rest → ItemsWord ctx depth (.printed pipeline text :: rest)
  | rendered {depth : Nat} {rest : List Event} (pipeline : PipelineId) (value : Value) :
    ItemsWord ctx depth rest → ItemsWord ctx depth (.rendered pipeline value :: rest)
  | wrote {depth : Nat} {fan rest : List Event} (pool : String) (value : Value) (updates : Nat) :
    FanWord ctx depth pool value (ctx.plan.subscribersOf pool) fan → ItemsWord ctx depth rest →
    ItemsWord ctx depth (.poolUpdated pool value updates :: (fan ++ rest))

/-- What follows a write of a value to a pool, for the subscriptions on it. -/
inductive FanWord (ctx : RunContext σ) :
    Nat → String → Value → List Subscription → List Event → Prop where
  | nil {depth : Nat} {pool : String} {value : Value} : FanWord ctx depth pool value [] []
  /-- The subscriber runs one level deeper, with the written value. -/
  | run {depth : Nat} {pool : String} {value : Value} {s : Subscription}
    {subscriptions : List Subscription} {word rest : List Event} :
    depth + 1 ≤ ctx.config.maxSubscriberDepth → RunWord ctx (depth + 1) s.root (some value) word →
    FanWord ctx depth pool value subscriptions rest →
    FanWord ctx depth pool value (s :: subscriptions) (word ++ rest)
  /-- The subscriber is too deep to run. -/
  | refuse {depth : Nat} {pool : String} {value : Value} {s : Subscription}
    {subscriptions : List Subscription} {rest : List Event} {failure : Failure} :
    ctx.config.maxSubscriberDepth < depth + 1 →
    failure.cause = .limitExceeded .subscriberDepth ctx.config.maxSubscriberDepth →
    FanWord ctx depth pool value subscriptions rest →
    FanWord ctx depth pool value (s :: subscriptions) (.failed s.pipeline failure :: rest)

end

/-- A word for each element of a list, in order. -/
inductive Each {α : Type} (word : α → List Event → Prop) : List α → List Event → Prop where
  | nil : Each word [] []
  | cons {a : α} {as : List α} {first rest : List Event} :
    word a first → Each word as rest → Each word (a :: as) (first ++ rest)

/-- The literal of a live source. -/
def NodeKind.liveLiteral : NodeKind → String
  | .liveSource literal => literal
  | _ => ""

/-- The activation of a live source, and a run of it if the settings ask for one. An id that is
no node tells nothing. -/
def LiveWord (ctx : RunContext σ) (root : NodeId) (word : List Event) : Prop :=
  match ctx.program.node? root with
  | none => word = []
  | some node => ∃ rest,
    word = .liveActivated node.pipeline node.kind.liveLiteral :: rest ∧
    if ctx.config.runLiveSourcesOnce then RunWord ctx 0 root none rest else rest = []

/-- What a program tells: its finite sources, its live sources, its subscriptions. -/
def ProgramWord (ctx : RunContext σ) (initial : PoolStore) (word : List Event) : Prop :=
  ∃ finite live fired, word = finite ++ live ++ fired ∧
    Each (fun root => RunWord ctx 0 root none) ctx.plan.finiteRoots finite ∧
    Each (LiveWord ctx) ctx.plan.liveRoots live ∧
    if ctx.config.fireSubscribersOnStart then
      Each (fun s => RunWord ctx 0 s.root (some ((initial.value? s.pool).getD .null)))
        ctx.plan.subscriptions fired
    else fired = []

theorem ItemsWord.append {ctx : RunContext σ} {depth : Nat} {first second : List Event} :
    ItemsWord ctx depth first → ItemsWord ctx depth second →
    ItemsWord ctx depth (first ++ second)
  | .nil, h => h
  | .printed pipeline text rest, h => .printed pipeline text (rest.append h)
  | .rendered pipeline value rest, h => .rendered pipeline value (rest.append h)
  | .wrote pool value updates hfan rest, h => by
    rw [List.cons_append, List.append_assoc]
    exact .wrote pool value updates hfan (rest.append h)

end Sluice
