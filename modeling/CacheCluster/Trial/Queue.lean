import CacheCluster.Clock
import CacheCluster.Replication.Queue

/-! # Trying a queue

A replication queue on a clock, with a sink that takes the same time for each batch.
-/

namespace CacheCluster

structure QueueTrial where
  sink : Sink Nat
  clock : Clocked (Queue Nat × Metrics)

namespace QueueTrial

/-- A new queue at time zero. -/
def start (queue : Queue Nat) (delay : Nat) (fatal : Option String) : QueueTrial :=
  ⟨.steady delay fatal, { state := (queue, {}) }⟩

variable (trial : QueueTrial)

def queue : Queue Nat := trial.clock.state.1

def push (event : Event) : QueueTrial :=
  let pushed := trial.queue.pushMetered trial.clock.now event trial.clock.state.2
  { trial with clock := { trial.clock with state := pushed } }

def background : Background (Queue Nat × Metrics) :=
  fun _ now limit (queue, metrics) => queue.run trial.sink now limit metrics

/-- Lets time pass. -/
def advance (milliseconds : Nat) : QueueTrial :=
  { trial with clock := trial.clock.advance trial.background milliseconds }

/-- Shuts the queue down, and says how many events were discarded. -/
def shutdown (grace : Nat) : QueueTrial × Nat :=
  let closing := trial.queue.shutdown trial.sink grace trial.clock.now trial.clock.state.2
  ({ trial with clock := { now := closing.finish, state := (closing.queue, closing.metrics) } },
    closing.discarded)

end QueueTrial

end CacheCluster
