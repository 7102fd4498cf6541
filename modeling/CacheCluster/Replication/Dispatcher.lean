import CacheCluster.Replication.Fanout
import CacheCluster.Settings.Replication

/-! # Dispatching events to the peers

A dispatcher takes the events of all caches of a node. In synchronous mode it delivers each event to
every peer of its cache before it returns; in asynchronous mode it queues it. Failures are counted
and never reach the caller. A dispatcher that was shut down takes nothing any more.
-/

namespace CacheCluster

/-- What asks a peer to apply a message. -/
def Message.action : Message → Request.Action
  | .put element => .put element
  | .remove key => .remove key
  | .removeAll => .removeAll

structure Dispatcher where
  settings : Settings.Replication := {}
  isAlive : Bool := true
  queues : Table (Queue Fanout) := ∅
  metrics : Metrics := {}
  /-- The calls that no queue keeps: synchronous ones, and those of queues that are gone. -/
  sent : List Delivery := []

/-- What a dispatcher became by an operation, and when that was over. -/
structure Dispatching where
  dispatcher : Dispatcher
  finish : Nat

namespace Dispatcher

variable (dispatcher : Dispatcher)

/-- The events of a cache that wait in its queue. -/
def pending (cache : String) : Nat :=
  ((dispatcher.queues.get? cache).map (·.pending.length)).getD 0

/-- Every call that was made, those to one peer in order. -/
def deliveries : List Delivery :=
  dispatcher.sent ++ dispatcher.queues.values.flatMap Queue.deliveries

/-! ## Events -/

/-- The queue of a cache, made when it is first needed. -/
def queueFor (cache : String) : Queue Fanout :=
  (dispatcher.queues.get? cache).getD
    { cache, interval := dispatcher.settings.interval, maxBatch := dispatcher.settings.maxBatch }

/-- Queues an event. -/
def enqueue (now : Nat) (event : Event) : Dispatcher :=
  let (queue, metrics) := (dispatcher.queueFor event.cache).pushMetered now event dispatcher.metrics
  { dispatcher with queues := dispatcher.queues.insert event.cache queue, metrics }

/-- Calls peers one after the other, and says when the last call is over. -/
def deliverInTurn (mesh : Mesh) (timeout : Nat) (action : Request.Action) :
    (time : Nat) → (urls : List String) → List Delivery × Nat
  | time, [] => ([], time)
  | time, url :: urls =>
    let delivery := mesh.askWithin timeout time url action
    let (deliveries, finish) := deliverInTurn mesh timeout action (delivery.over timeout) urls
    (delivery :: deliveries, finish)

/-- Delivers an event to every peer of its cache; an event without a message needs none. -/
def deliver (neighbours : Neighbours) (now : Nat) (event : Event) : Dispatching :=
  match event.message? with
  | none => ⟨dispatcher, now⟩
  | some message =>
    let lookup := neighbours.lookUp now event.cache
    let (deliveries, finish) := deliverInTurn neighbours.mesh dispatcher.settings.callTimeout
      message.action lookup.finish lookup.found
    { dispatcher := { dispatcher with
        sent := dispatcher.sent ++ deliveries
        metrics := dispatcher.metrics.add (.failures event.cache)
          (deliveries.countP Delivery.failed) }
      finish }

/-- Takes an event: counts it if its kind is replicated, and delivers or queues it. -/
def notify (neighbours : Neighbours) (now : Nat) (event : Event) : Dispatching :=
  if dispatcher.isAlive then
    match dispatcher.settings.accept event with
    | none => ⟨dispatcher, now⟩
    | some event =>
      let counted := { dispatcher with
        metrics := dispatcher.metrics.add (.events event.cache event.kind) 1 }
      if dispatcher.settings.asynchronous then ⟨counted.enqueue now event, now⟩
      else counted.deliver neighbours now event
  else ⟨dispatcher, now⟩

/-! ## Passing time -/

/-- The sink of the queues. -/
def sink (neighbours : Neighbours) : Sink Fanout :=
  .fanout neighbours dispatcher.settings.callTimeout

/-- Runs one queue from `now` up to and including `limit`. -/
def runQueue (neighbours : Neighbours) (now limit : Nat) (dispatcher : Dispatcher)
    (queue : Queue Fanout) : Dispatcher :=
  let (queue, metrics) := queue.run (dispatcher.sink neighbours) now limit dispatcher.metrics
  { dispatcher with queues := dispatcher.queues.insert queue.cache queue, metrics }

/-- Runs the queues from `now` up to and including `limit`. -/
def run (neighbours : Neighbours) (now limit : Nat) : Dispatcher :=
  dispatcher.queues.values.foldl (runQueue neighbours now limit) dispatcher

/-! ## Shutdown -/

/-- What shutting down has come to while some queues are still to be drained. -/
structure Closing where
  metrics : Metrics
  sent : List Delivery
  discarded : Nat := 0
  finish : Nat

/-- Drains one queue and keeps the record of its calls. -/
def closeQueue (neighbours : Neighbours) (now : Nat) (closing : Closing) (queue : Queue Fanout) :
    Closing :=
  let closed := queue.shutdown (dispatcher.sink neighbours) dispatcher.settings.shutdownGrace now
    closing.metrics
  { metrics := closed.metrics
    sent := closing.sent ++ closed.queue.deliveries
    discarded := closing.discarded + closed.discarded
    finish := max closing.finish closed.finish }

/-- Drains every queue, all of them within one grace period. -/
def close (neighbours : Neighbours) (now : Nat) : Closing :=
  dispatcher.queues.values.foldl (dispatcher.closeQueue neighbours now)
    { metrics := dispatcher.metrics, sent := dispatcher.sent, finish := now }

/-- Stops taking events and drains the queues within the grace period. -/
def shutdown (neighbours : Neighbours) (now : Nat) : Dispatching :=
  let closing := dispatcher.close neighbours now
  { dispatcher := { dispatcher with
      isAlive := false, queues := ∅, metrics := closing.metrics, sent := closing.sent }
    finish := closing.finish }

end Dispatcher

end CacheCluster
