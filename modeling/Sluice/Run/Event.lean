/-
  Sluice.Run.Event

  What an observer hears of a run, and the channel it comes through. A run never waits for its
  observer: it tries to send an event and goes on. What a channel does with an event is up to the
  channel; a bounded one loses what does not fit.
-/

import Sluice.Run.Failure
import Sluice.Value

namespace Sluice

/-- Something that happened in a run. -/
inductive Event where
  | started (pipeline : PipelineId) (root : NodeId)
  | printed (pipeline : PipelineId) (text : String)
  | poolUpdated (pool : String) (value : Value) (updates : Nat)
  | rendered (pipeline : PipelineId) (value : Value)
  | completed (pipeline : PipelineId) (value : Value)
  | failed (pipeline : PipelineId) (failure : Failure)
  | liveActivated (pipeline : PipelineId) (literal : String)

/-- What becomes of an event that is sent without waiting. -/
inductive Sent where
  | taken
  | full
  | disconnected
deriving Repr, DecidableEq

/-- A channel to an observer: the events that wait in it, oldest first, and what a try to send one
more comes to. -/
structure Channel where
  trySend : Event → List Event → Sent × List Event
  waiting : List Event := []

namespace Channel

/-- Try to send an event, and go on whatever becomes of it. -/
def send (event : Event) (c : Channel) : Channel :=
  { c with waiting := (c.trySend event c.waiting).2 }

/-- Try to send an event to an observer, if there is one. -/
def emit (channel : Option Channel) (event : Event) : Option Channel :=
  channel.map (send event)

/-- Take the oldest event. -/
def receive? (c : Channel) : Option (Event × Channel) :=
  match c.waiting with
  | [] => none
  | e :: rest => some (e, { c with waiting := rest })

/-- Take all events. -/
def drain (c : Channel) : List Event × Channel :=
  (c.waiting, { c with waiting := [] })

/-- A channel that takes a number of events and loses what does not fit. -/
def bounded (capacity : Nat) : Channel where
  trySend event waiting :=
    if waiting.length < capacity then (.taken, waiting ++ [event]) else (.full, waiting)

/-- A channel that takes every event. -/
def unbounded : Channel where
  trySend event waiting := (.taken, waiting ++ [event])

end Channel

end Sluice
