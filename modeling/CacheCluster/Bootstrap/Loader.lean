import CacheCluster.Bootstrap.Load

/-! # The loads of a node

A loader starts a load for each new cache, in the background or not, and can cancel those that still
run. Loads of one store put their elements in the order of time.
-/

namespace CacheCluster

structure Loader where
  settings : Settings.Bootstrap := {}
  /-- Milliseconds that every load waits first. -/
  startupDelay : Nat := 0
  /-- Which of the peers that are found the loads copy, one after the other. -/
  picks : (load : Nat) → Nat := fun _ => 0
  loads : List Load := []

namespace Loader

variable (loader : Loader)

/-- The number of background loads that are not over. -/
def pending : Nat :=
  loader.loads.countP Load.isPending

/-- The next load. -/
def newLoad (cache : String) (now : Nat) : Load :=
  { Load.start cache loader.settings.budget loader.startupDelay now with
    pick := loader.picks loader.loads.length }

/-- Starts a load in the background. -/
def begin (cache : String) (now : Nat) : Loader :=
  { loader with loads := loader.loads ++ [loader.newLoad cache now] }

/-- Runs the loads from `now` up to and including `limit`. -/
def run (neighbours : Neighbours) (now limit : Nat) : Loader × List Load.Write :=
  let steps := loader.loads.map (Load.run neighbours now limit)
  ({ loader with loads := steps.map Prod.fst }, steps.flatMap Prod.snd)

/-- What a load that was waited for came to. -/
structure Completion where
  loader : Loader
  result : Result Nat
  writes : List Load.Write
  finish : Nat

/-- Loads a cache to the end, whatever the mode. -/
def loadNow (neighbours : Neighbours) (cache : String) (now : Nat) : Completion :=
  let (load, writes) := (loader.newLoad cache now).complete neighbours now
  let (finish, result) := load.outcome?.getD (now, .ok 0)
  { loader := { loader with loads := loader.loads ++ [load] }, result, writes, finish }

/-- Loads a cache, in the background if so configured, which then counts as nothing loaded. -/
def load (neighbours : Neighbours) (cache : String) (now : Nat) : Completion :=
  if loader.settings.asynchronous then
    { loader := loader.begin cache now, result := .ok 0, writes := [], finish := now }
  else loader.loadNow neighbours cache now

/-- Cancels the background loads. -/
def shutdown : Loader :=
  { loader with loads := loader.loads.map Load.cancel }

/-- Every call that was made, the earliest first. -/
def deliveries : List Delivery :=
  (loader.loads.flatMap Load.deliveries).mergeSort Delivery.isNoLater

end Loader

namespace Store

/-- Puts what loads wrote into the store of a cache, the earliest first. -/
def absorb (cache : String) (writes : List Load.Write) (store : Store) : Store :=
  putAll store (((writes.filter (·.cache == cache)).mergeSort (·.time ≤ ·.time)).map (·.element))

end Store

end CacheCluster
