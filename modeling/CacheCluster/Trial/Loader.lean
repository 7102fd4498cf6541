import CacheCluster.Bootstrap.Loader
import CacheCluster.Clock
import CacheCluster.Peer.Script

/-! # Trying a loader

A loader on a clock that fills one cache from peers that follow scripts.
-/

namespace CacheCluster

structure LoaderTrial where
  clock : Clocked (Loader × List Load.Write)
  registry : Registry
  scripts : List Script
  cache : String
  /-- What the cache holds at first. -/
  preloaded : Store

namespace LoaderTrial

variable (trial : LoaderTrial)

def loader : Loader := trial.clock.state.1

/-- What the cache holds. -/
def store : Store :=
  trial.preloaded.absorb trial.cache trial.clock.state.2

def neighbours (turn : Nat) : Neighbours where
  registry := trial.registry
  mesh := (Mesh.ofScripts trial.scripts).inTurn turn

def background : Background (Loader × List Load.Write) :=
  fun turn now limit (loader, writes) =>
    let (loader, more) := loader.run (trial.neighbours turn) now limit
    (loader, writes ++ more)

/-- Lets time pass. -/
def advance (milliseconds : Nat) : LoaderTrial :=
  { trial with clock := trial.clock.advance trial.background milliseconds }

/-- Takes over what a load made of the loader. -/
def after (done : Loader.Completion) : LoaderTrial × Result Nat :=
  let state := (done.loader, trial.clock.state.2 ++ done.writes)
  ({ trial with clock := trial.clock.after trial.background state done.finish }, done.result)

/-- Loads the cache as configured. -/
def load : LoaderTrial × Result Nat :=
  trial.after
    (trial.loader.load (trial.neighbours trial.clock.turn) trial.cache trial.clock.now)

/-- Loads the cache to the end. -/
def loadNow : LoaderTrial × Result Nat :=
  trial.after
    (trial.loader.loadNow (trial.neighbours trial.clock.turn) trial.cache trial.clock.now)

def shutdown : LoaderTrial :=
  { trial with clock := { trial.clock with state := (trial.loader.shutdown, trial.clock.state.2) } }

/-- Changes the scripts of all peers. -/
def changeScripts (change : Script → Script) : LoaderTrial :=
  { trial with scripts := trial.scripts.map change }

end LoaderTrial

end CacheCluster
