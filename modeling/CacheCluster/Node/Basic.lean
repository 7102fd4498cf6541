import CacheCluster.Bootstrap.Loader
import CacheCluster.Peer.Provider
import CacheCluster.Replication.Dispatcher
import CacheCluster.Transport.Listener

/-! # Nodes

A node hosts replicated caches: it serves them to its peers, sends on what changes in them, and
fills a new one from a peer. A local write is complete before it is sent on, and what goes wrong at
the peers does not reach the writer.
-/

namespace CacheCluster

structure Node where
  /-- Serves the caches; the stores that it serves are those the node writes to. -/
  listener : Listener
  provider : Provider
  dispatcher : Dispatcher
  /-- Fills new caches, unless that is switched off. -/
  loader : Option Loader
  /-- Milliseconds after which the look-up of a peer is given up. -/
  lookupTimeout : Nat
  isRunning : Bool := false

namespace Node

/-- What an operation on a node comes to, and when it is over. -/
structure Step (α : Type) where
  node : Node
  result : α
  finish : Nat

/-- A new node, whose loads copy the peers that happen to be picked. -/
def ofConfiguration (config : Settings.Configuration) (picks : (load : Nat) → Nat := fun _ => 0) :
    Settings.Noted (Result Node) := do
  let listener ← Listener.ofConfiguration config
  match ← Provider.ofConfiguration config with
  | .error error => return .error error
  | .ok provider =>
    let lookupTimeout ← config.socketTimeout
    let settings ← Settings.Replication.ofConfiguration config
    let loader ← if ← config.bootstrapEnabled then do
        let settings ← Settings.Bootstrap.ofConfiguration config
        pure (some { settings, startupDelay := provider.timeToForm, picks : Loader })
      else pure none
    return .ok { listener, provider, dispatcher := { settings }, loader, lookupTimeout }

variable (node : Node) (mesh : Mesh) (now : Nat)

def neighbours : Neighbours where
  registry := node.provider.registry
  localUrls := node.listener.advertised
  mesh := mesh
  lookupTimeout := node.lookupTimeout

/-! ## Caches -/

def store? (cache : String) : Option Store :=
  node.listener.caches.get? cache

/-- The names of the caches, in ascending order. -/
def cacheNames : List String :=
  node.listener.caches.names

/-- Changes the store of a cache. -/
def setStore (cache : String) (store : Store) : Node :=
  { node with listener := node.listener.serveCache cache store }

/-- A cache can be named in a url and a url in a heartbeat. -/
def isCacheName (name : String) : Bool :=
  !name.isEmpty && !name.toList.contains Heartbeat.delimiter && !name.toList.contains '/'

def invalidName (name : String) : Error :=
  .configuration ("invalid cache name '" ++ name ++ "': must be non-empty without '" ++
    String.singleton Heartbeat.delimiter ++ "' or '/'")

/-- Puts what loads wrote into the stores. -/
def absorb (writes : List Load.Write) : Node :=
  node.cacheNames.foldl (fun node cache =>
    match node.store? cache with
    | some store => node.setStore cache (Store.absorb cache writes store)
    | none => node) node

/-- Fills a cache that is new. A load that fails leaves the cache as far as it came. -/
def fill (cache : String) : Step (Result Unit) :=
  match node.loader with
  | none => ⟨node, .ok (), now⟩
  | some loader =>
    let loading := loader.load (node.neighbours mesh) cache now
    ⟨{ node with loader := some loading.loader }.absorb loading.writes, .ok (), loading.finish⟩

/-- Makes a cache, or leaves the one that there is. -/
def addCache (name : String) : Step (Result Unit) :=
  if !isCacheName name then ⟨node, .error (invalidName name), now⟩
  else if node.listener.caches.contains name then ⟨node, .ok (), now⟩
  else (node.setStore name ∅).fill mesh now name

/-! ## Writes -/

/-- Sends an event on. -/
def notify (event : Event) : Step Unit :=
  let dispatching := node.dispatcher.notify (node.neighbours mesh) now event
  ⟨{ node with dispatcher := dispatching.dispatcher }, (), dispatching.finish⟩

/-- Puts an element into a cache; for a key that was there this is an update. -/
def put (cache : String) (store : Store) (element : Element) : Step Unit :=
  (node.setStore cache (store.put element)).notify mesh now
    (if store.contains element.key then .update cache element else .put cache element)

/-- Removes a key, and says whether it was there; one that was not is no event. -/
def remove (cache : String) (store : Store) (key : String) : Step Bool :=
  if store.contains key then
    let step := (node.setStore cache (store.remove key)).notify mesh now (.remove cache key)
    ⟨step.node, true, step.finish⟩
  else ⟨node, false, now⟩

def removeAll (cache : String) : Step Unit :=
  (node.setStore cache ∅).notify mesh now (.removeAll cache)

/-! ## Life -/

/-- Opens the listener and starts discovery; if that fails, the listener is closed again. -/
def start (interfaces : Interfaces) (freePort : Nat) : Node × Result Unit :=
  if node.isRunning then (node, .ok ())
  else
    match node.listener.start freePort with
    | .error error => (node, .error error)
    | .ok listener =>
      match node.provider.start interfaces with
      | .error error => ({ node with listener := listener.stop }, .error error)
      | .ok provider => ({ node with listener, provider, isRunning := true }, .ok ())

/-- Lets what is in the background happen from `now` up to and including `limit`. -/
def run (limit : Nat) : Node :=
  let neighbours := node.neighbours mesh
  let node := { node with dispatcher := node.dispatcher.run neighbours now limit }
  match node.loader with
  | none => node
  | some loader =>
    let (loader, writes) := loader.run neighbours now limit
    { node with loader := some loader }.absorb writes

/-- Cancels the loads; a running node also stops discovery, drains its queues and closes the
listener. -/
def shutdown : Step Unit :=
  let node := { node with loader := node.loader.map Loader.shutdown }
  if !node.isRunning then ⟨node, (), now⟩
  else
    let dispatching := node.dispatcher.shutdown (node.neighbours mesh) now
    { node := { node with
        provider := node.provider.stop
        dispatcher := dispatching.dispatcher
        listener := node.listener.stop
        isRunning := false }
      result := ()
      finish := dispatching.finish }

/-- Every call that the node made. -/
def deliveries : List Delivery :=
  (node.loader.map Loader.deliveries).getD [] ++ node.dispatcher.deliveries

end Node

end CacheCluster
