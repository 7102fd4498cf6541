import CacheCluster.Settings.Value
import CacheCluster.Settings.Warning
import CacheCluster.Text.Blank

/-! # The settings of a node

Each setting has a key and a default. A missing key gives the default; a value of the wrong type
gives the default and a warning; a number out of range is replaced as its setting says.
-/

namespace CacheCluster.Settings

/-- The address of the machine, which a node takes for its host when none is set. -/
def localHost : String := "<local>"

/-- The settings of a node, as a tree of values. -/
structure Configuration where
  tree : Value := .table []

namespace Configuration

variable (config : Configuration)

/-- Reads a key as some type, with a default. -/
def readOr {α : Type} (read? : Value → Option α) (render : α → String) (key : String)
    (fallback : α) :
    Noted α :=
  match lookup read? key config.tree with
  | .found a => pure a
  | .missing => pure fallback
  | .unreadable => ⟨fallback, [.unreadable key (render fallback)]⟩

section
variable {config : Configuration} {α : Type} {read? : Value → Option α} {render : α → String}
  {key : String} {fallback : α} {value : Value}

theorem readOr_of_missing (missing : config.tree.get? (pathOf key) = none) :
    config.readOr read? render key fallback = pure fallback := by
  simp only [readOr, lookup, missing]

theorem readOr_of_unreadable (known : config.tree.get? (pathOf key) = some value)
    (unreadable : read? value = none) :
    config.readOr read? render key fallback = ⟨fallback, [.unreadable key (render fallback)]⟩ := by
  simp only [readOr, lookup, known, unreadable]

theorem readOr_of_found {a : α} (known : config.tree.get? (pathOf key) = some value)
    (found : read? value = some a) :
    config.readOr read? render key fallback = pure a := by
  simp only [readOr, lookup, known, found]

end

def integerOr (key : String) (fallback : Int) : Noted Int :=
  config.readOr Value.toInteger? toString key fallback

def boolOr (key : String) (fallback : Bool) : Noted Bool :=
  config.readOr Value.toBool? (fun b => if b then "true" else "false") key fallback

/-- The trimmed text at a key, if there is one that is not blank. -/
def text? (key : String) : Option String :=
  ((lookup Value.toText? key config.tree).toOption.map Text.trim).filter (!·.isEmpty)

/-- The parts of the text at a key, trimmed and without blank ones. -/
def parts (isSeparator : Char → Bool) (key : String) : List String :=
  match config.text? key with
  | some s => ((Text.split isSeparator s).map Text.trim).filter (!·.isEmpty)
  | none => []

def peerDiscovery : String :=
  (config.text? "cachemesh.peer.discovery").getD "automatic"

def peerUrls : List String :=
  config.parts (· == '|') "cachemesh.peer.urls"

def multicastGroupAddress : Option String :=
  config.text? "cachemesh.multicast.group.address"

def multicastGroupPort : Option String :=
  config.text? "cachemesh.multicast.group.port"

def multicastTimeToLive : Option String :=
  config.text? "cachemesh.multicast.ttl"

def multicastHostName : Option String :=
  config.text? "cachemesh.multicast.host.name"

def minHeartbeatInterval : Nat := 1000

/-- Milliseconds from one heartbeat to the next; fewer than the minimum are too few. -/
def heartbeatInterval : Noted Nat := do
  let ms ← config.integerOr "cachemesh.multicast.heartbeat.interval.ms" 5000
  if ms < minHeartbeatInterval then
    Noted.warn (.shortHeartbeat ms)
    return minHeartbeatInterval
  return ms.toNat

/-- Milliseconds without a heartbeat after which a peer counts as gone. -/
def staleTimeout : Noted Nat := do
  let heartbeat ← config.heartbeatInterval
  let ms ← config.integerOr "cachemesh.multicast.stale.timeout.ms" (-1)
  return if ms > 0 then ms.toNat else heartbeat * 2 + 1000

def defaultPeersPerSend : Nat := 500

/-- The greatest number of urls in one heartbeat. -/
def maxPeersPerSend : Noted Nat := do
  let n ← config.integerOr "cachemesh.multicast.max.peers.per.send" defaultPeersPerSend
  if n < 1 then
    Noted.warn (.peersPerSend n)
    return defaultPeersPerSend
  return n.toNat

def replicatePuts : Noted Bool :=
  config.boolOr "cachemesh.replication.replicate-puts" true

def replicatePutsViaCopy : Noted Bool :=
  config.boolOr "cachemesh.replication.replicate-puts-via-copy" true

def replicateUpdates : Noted Bool :=
  config.boolOr "cachemesh.replication.replicate-updates" true

def replicateUpdatesViaCopy : Noted Bool :=
  config.boolOr "cachemesh.replication.replicate-updates-via-copy" true

def replicateRemovals : Noted Bool :=
  config.boolOr "cachemesh.replication.replicate-removals" true

def replicateAsynchronously : Noted Bool :=
  config.boolOr "cachemesh.replication.replicate-asynchronously" true

/-- Milliseconds between two flushes as configured; what is reasonable is decided elsewhere. -/
def asyncInterval : Noted Int :=
  config.integerOr "cachemesh.replication.async-interval-ms" 1000

/-- The batch size as configured; what is reasonable is decided elsewhere. -/
def asyncMaxBatchSize : Noted Int :=
  config.integerOr "cachemesh.replication.async-max-batch-size" 1000

/-- Milliseconds that a shutdown waits for queued events. -/
def shutdownGrace : Noted Nat := do
  return (← config.integerOr "cachemesh.replication.shutdown-grace-ms" 3000).toNat

def listenerHostName : String :=
  (config.text? "cachemesh.listener.host.name").getD localHost

def defaultListenerPort : Nat := 40001

def listenerPort : Noted Nat := do
  let port ← config.integerOr "cachemesh.listener.port" defaultListenerPort
  if 0 ≤ port ∧ port < Decimal.uint16Size then return port.toNat
  Noted.warn (.listenerPort port)
  return defaultListenerPort

def defaultSocketTimeout : Nat := 120000

/-- Milliseconds after which a call, or a connection without one, is given up. -/
def socketTimeout : Noted Nat := do
  let ms ← config.integerOr "cachemesh.listener.socket.timeout.ms" defaultSocketTimeout
  return if ms ≤ 0 then defaultSocketTimeout else ms.toNat

def bootstrapEnabled : Noted Bool :=
  config.boolOr "cachemesh.bootstrap.enabled" true

def bootstrapAsynchronously : Noted Bool :=
  config.boolOr "cachemesh.bootstrap.asynchronously" true

/-- The chunk size as configured; what is reasonable is decided elsewhere. -/
def bootstrapChunkSize : Noted Int :=
  config.integerOr "cachemesh.bootstrap.maximum.chunk.size.bytes" 5000000

/-- The names of the caches that the node hosts. -/
def caches : List String :=
  config.parts (fun c => c == '|' || c == ',') "cachemesh.caches"

/-- The port of the metrics exporter, if it is on. -/
def metricsPort : Option Nat :=
  ((lookup Value.toInteger? "cachemesh.metrics.port" config.tree).toOption.filter
    fun port : Int => 0 < port && port < Decimal.uint16Size).map Int.toNat

end Configuration

end CacheCluster.Settings
