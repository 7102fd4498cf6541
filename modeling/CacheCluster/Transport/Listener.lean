import CacheCluster.Peer.Url
import CacheCluster.Settings.Configuration
import CacheCluster.Transport.Address
import CacheCluster.Transport.Service

/-! # Listeners

A listener serves the caches of a node on one port. A requested port of zero asks for any free one,
which is known once the listener has been started.
-/

namespace CacheCluster

structure Listener where
  host : String
  requestedPort : Nat
  port : Nat := requestedPort
  /-- Milliseconds after which an idle connection is closed. -/
  socketTimeout : Nat := Settings.Configuration.defaultSocketTimeout
  caches : Table Store := ∅
  isRunning : Bool := false
  /-- How often the listener has been started or stopped; connections do not outlive a change. -/
  session : Nat := 0

namespace Listener

def ofConfiguration (config : Settings.Configuration) : Settings.Noted Listener := do
  return {
    host := config.listenerHostName
    requestedPort := ← config.listenerPort
    socketTimeout := ← config.socketTimeout }

variable (listener : Listener)

def urlFor (cache : String) : String :=
  PeerUrl.format listener.host listener.port cache

/-- The urls of the caches that are served, in ascending order. -/
def advertised : List String :=
  (listener.caches.names.map listener.urlFor).mergeSort (· ≤ ·)

/-- Serves a cache; one of the same name is served no more. -/
def serveCache (cache : String) (store : Store) : Listener :=
  { listener with caches := listener.caches.insert cache store }

def withdraw (cache : String) : Listener :=
  { listener with caches := listener.caches.erase cache }

/-- Opens the port; `freePort` is taken where any will do. -/
def start (freePort : Nat) : Result Listener :=
  if Address.isKnownHost listener.host then
    .ok { listener with
      port := if listener.requestedPort = 0 then freePort else listener.requestedPort
      isRunning := true
      session := listener.session + 1 }
  else .error (.io .other "failed to lookup address information")

/-- Closes the port and all connections. -/
def stop : Listener :=
  if listener.isRunning then { listener with isRunning := false, session := listener.session + 1 }
  else listener

end Listener

end CacheCluster
