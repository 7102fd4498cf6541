import CacheCluster.Heartbeat
import CacheCluster.Table

/-! # The registry of peer urls

A url is known because it was registered, or because a heartbeat named it. A url of the second kind
goes stale when it has not been heard of for longer than a timeout; it then counts as unknown,
although its entry stays until it is swept. Times are milliseconds that never go back.
-/

namespace CacheCluster

/-- How a url came to be known. -/
structure Sighting where
  lastSeen : Nat
  /-- Whether the url can go stale; a registered one cannot. -/
  expiring : Bool
  deriving DecidableEq, Repr

/-- Whether a url is out of date at `now`. -/
def Sighting.isStale (timeout : Option Nat) (now : Nat) (sighting : Sighting) : Bool :=
  match timeout with
  | some timeout => sighting.expiring && timeout < now - sighting.lastSeen
  | none => false

structure Registry where
  /-- Without a timeout no url goes stale. -/
  staleTimeout : Option Nat := none
  peers : Table Sighting := ∅

namespace Registry

variable (registry : Registry) (now : Nat)

def isStale (sighting : Sighting) : Bool :=
  sighting.isStale registry.staleTimeout now

/-- The number of entries, stale ones included. -/
def size : Nat :=
  registry.peers.size

def contains (url : String) : Bool :=
  (registry.peers.get? url).any fun sighting => !registry.isStale now sighting

/-- The urls that are not stale, in ascending order. -/
def live : List String :=
  (registry.peers.filter fun _ sighting => !registry.isStale now sighting).names

/-- Makes a url known for good. -/
def register (url : String) : Registry :=
  { registry with peers := registry.peers.insert url ⟨now, false⟩ }

/-- Notes that a url was heard of; a registered one stays registered. -/
def refresh (url : String) : Registry :=
  let expiring := ((registry.peers.get? url).map (·.expiring)).getD true
  { registry with peers := registry.peers.insert url ⟨now, expiring⟩ }

/-- Whether hearing of a url is news, as it is not known or out of date. -/
def isNews (url : String) : Bool :=
  (registry.peers.get? url).all fun sighting => registry.isStale now sighting

def unregister (url : String) : Registry :=
  { registry with peers := registry.peers.erase url }

/-- The urls whose entries are stale, in ascending order. -/
def stale : List String :=
  (registry.peers.filter fun _ sighting => registry.isStale now sighting).names

/-- Drops the stale entries. -/
def sweep : Registry :=
  { registry with peers := registry.peers.filter fun _ sighting => !registry.isStale now sighting }

/-! ## Heartbeats -/

/-- Notes every url but the node's own, and counts those that are news. -/
def hearUrls (own : List String) : List String → Nat × Registry → Nat × Registry
  | [], heard => heard
  | url :: urls, (discovered, registry) =>
    if own.contains url then hearUrls own urls (discovered, registry)
    else
      hearUrls own urls (discovered + (registry.isNews now url).toNat, registry.refresh now url)

/-- Takes in the payload of a heartbeat; one that does not read changes nothing. -/
def hear (own : List String) (payload : List UInt8) : Result (Nat × Registry) :=
  (Heartbeat.disassemble payload).map fun urls => hearUrls now own urls (0, registry)

end Registry

end CacheCluster
