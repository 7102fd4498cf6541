import CacheCluster.Clock
import CacheCluster.Peer.Script
import CacheCluster.Replication.Dispatcher

/-! # Trying a dispatcher

A dispatcher on a clock, among peers that follow scripts.
-/

namespace CacheCluster

structure DispatcherTrial where
  clock : Clocked Dispatcher
  neighbours : Neighbours
  scripts : List Script

namespace DispatcherTrial

/-- A new dispatcher at time zero. -/
def start (settings : Settings.Replication) (scripts : List Script) (registry : Registry)
    (localUrls : List String) (lookupTimeout : Nat) : DispatcherTrial where
  clock := { state := { settings } }
  neighbours := { registry, localUrls, mesh := .ofScripts scripts, lookupTimeout }
  scripts := scripts

variable (trial : DispatcherTrial)

def dispatcher : Dispatcher := trial.clock.state

def background : Background Dispatcher :=
  fun _ now limit dispatcher => dispatcher.run trial.neighbours now limit

/-- Lets time pass. -/
def advance (milliseconds : Nat) : DispatcherTrial :=
  { trial with clock := trial.clock.advance trial.background milliseconds }

/-- Lets time pass up to the end of a step. -/
def waitUntil (finish : Nat) : DispatcherTrial :=
  { trial with clock := trial.clock.waitUntil trial.background finish }

/-- Takes over what a step made of the dispatcher. -/
def after (dispatching : Dispatching) : DispatcherTrial :=
  { trial with clock :=
      trial.clock.after trial.background dispatching.dispatcher dispatching.finish }

def notify (event : Event) : DispatcherTrial :=
  trial.after (trial.dispatcher.notify trial.neighbours trial.clock.now event)

def shutdown : DispatcherTrial :=
  trial.after (trial.dispatcher.shutdown trial.neighbours trial.clock.now)

/-- Looks up the peers of a cache. -/
def lookUp (cache : String) : DispatcherTrial × List String :=
  let lookup := trial.neighbours.lookUp trial.clock.now cache
  (trial.waitUntil lookup.finish, lookup.found)

/-- Looks up one url. -/
def resolve (url : String) : DispatcherTrial × Bool :=
  let lookup := trial.neighbours.lookUpAll trial.clock.now [url]
  (trial.waitUntil lookup.finish, !lookup.found.isEmpty)

def setRegistry (registry : Registry) : DispatcherTrial :=
  { trial with neighbours := { trial.neighbours with registry } }

/-- Changes the script of the peer at a url. -/
def changeScript (url : String) (change : Script → Script) : DispatcherTrial :=
  let scripts := trial.scripts.map fun script => if script.url == url then change script else script
  { trial with scripts, neighbours := { trial.neighbours with mesh := .ofScripts scripts } }

/-- Every call that was made, the earliest first. -/
def deliveries : List Delivery :=
  trial.dispatcher.deliveries.mergeSort Delivery.isNoLater

end DispatcherTrial

end CacheCluster
