import CacheCluster.Mutation
import CacheCluster.Settings.Configuration

/-! # What is replicated and when

The flags decide which events leave a node and whether they carry the element; the mode decides
whether they are delivered at once or collected.
-/

namespace CacheCluster.Settings

structure Replication where
  puts : Bool := true
  putsViaCopy : Bool := true
  updates : Bool := true
  updatesViaCopy : Bool := true
  removals : Bool := true
  asynchronous : Bool := true
  /-- Milliseconds that the oldest collected event waits at most. -/
  interval : Nat := 1000
  maxBatch : Nat := 1000
  callTimeout : Nat := Configuration.defaultSocketTimeout
  shutdownGrace : Nat := 3000
  deriving DecidableEq, Repr

namespace Replication

/-- The fewest milliseconds between two flushes that count as reasonable. -/
def minInterval : Int := 10

/-- A configured interval, or the default for an unreasonable one. -/
def intervalOf (ms : Int) : Noted Nat :=
  if ms < minInterval then ⟨1000, [.replicationInterval ms]⟩ else pure ms.toNat

/-- A configured batch size, or the default for one that is not positive. -/
def maxBatchOf (n : Int) : Noted Nat :=
  if n > 0 then pure n.toNat else ⟨1000, [.batchSize n]⟩

def ofConfiguration (config : Configuration) : Noted Replication := do
  return {
    puts := ← config.replicatePuts
    putsViaCopy := ← config.replicatePutsViaCopy
    updates := ← config.replicateUpdates
    updatesViaCopy := ← config.replicateUpdatesViaCopy
    removals := ← config.replicateRemovals
    asynchronous := ← config.replicateAsynchronously
    interval := ← intervalOf (← config.asyncInterval)
    maxBatch := ← maxBatchOf (← config.asyncMaxBatchSize)
    callTimeout := ← config.socketTimeout
    shutdownGrace := ← config.shutdownGrace }

theorem value_ofConfiguration (config : Configuration) : (ofConfiguration config).value = {
    puts := config.replicatePuts.value
    putsViaCopy := config.replicatePutsViaCopy.value
    updates := config.replicateUpdates.value
    updatesViaCopy := config.replicateUpdatesViaCopy.value
    removals := config.replicateRemovals.value
    asynchronous := config.replicateAsynchronously.value
    interval := (intervalOf config.asyncInterval.value).value
    maxBatch := (maxBatchOf config.asyncMaxBatchSize.value).value
    callTimeout := config.socketTimeout.value
    shutdownGrace := config.shutdownGrace.value } := by
  simp only [ofConfiguration, Noted.value_bind, Noted.value_pure]

variable (settings : Replication)

def replicatesAnything : Bool :=
  settings.puts || settings.updates || settings.removals

/-- The event as it is replicated, or none if its kind is not. -/
def accept (event : Event) : Option Event :=
  match event.kind with
  | .put => if settings.puts then some { event with viaCopy := settings.putsViaCopy } else none
  | .update =>
    if settings.updates then some { event with viaCopy := settings.updatesViaCopy } else none
  | .remove => if settings.removals then some event else none
  | .removeAll => if settings.replicatesAnything then some event else none

end Replication

end CacheCluster.Settings
