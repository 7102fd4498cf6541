import CacheCluster.Peer.Delivery
import CacheCluster.Replication.Queue

/-! # Sending a batch to every peer

The peers of the cache are looked up side by side, and those that are found are sent the messages of
the batch side by side. A batch is over when every peer has answered or has been given up.
-/

namespace CacheCluster

inductive Fanout
  | looking (messages : List Message) (lookup : Lookup)
  | sending (deliveries : List Delivery) (finish : Nat)

namespace Fanout

/-- The last of some times that follow `start`. -/
def latest (start : Nat) (times : List Nat) : Nat :=
  times.foldl max start

/-- Looks the peers of a batch up; one without messages needs no peers. -/
def ofBatch (neighbours : Neighbours) (time : Nat) (batch : Batch) : Fanout :=
  if batch.messages.isEmpty then .sending [] time
  else .looking batch.messages (neighbours.lookUp time batch.cache)

/-- Sends messages to peers side by side. -/
def ofPeers (mesh : Mesh) (timeout time : Nat) (messages : List Message) (urls : List String) :
    Fanout :=
  let deliveries := urls.map fun url => mesh.askWithin timeout time url (.send messages)
  .sending deliveries (latest time (deliveries.map (Delivery.over timeout)))

def deliveries : Fanout → List Delivery
  | looking _ _ => []
  | sending deliveries _ => deliveries

def due : Fanout → Nat
  | looking _ lookup => lookup.finish
  | sending _ finish => finish

end Fanout

/-- The sink that sends each batch to every peer of its cache. -/
def Sink.fanout (neighbours : Neighbours) (timeout : Nat) : Sink Fanout where
  start time batch := some (Fanout.ofBatch neighbours time batch)
  due := Fanout.due
  next time
    | .looking messages lookup =>
      some (Fanout.ofPeers neighbours.mesh timeout time messages lookup.found)
    | .sending _ _ => none
  failures fanout := fanout.deliveries.countP Delivery.failed
  rounds
    | .looking _ _ => 1
    | .sending _ _ => 0
  rounds_next {time work work'} h := by
    cases work with
    | looking messages lookup =>
      obtain rfl := Option.some.inj h
      simp [Fanout.ofPeers]
    | sending => simp at h

namespace Queue

/-- The calls made for the batches of a queue, as they stand when all it has seen has happened. -/
def deliveries (queue : Queue Fanout) : List Delivery :=
  (queue.handedOver.flatMap fun flush => (flush.work.map Fanout.deliveries).getD []).map
    (Delivery.cutAfter queue.seen)

end Queue

end CacheCluster
