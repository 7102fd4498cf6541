import CacheCluster.Settings.Bootstrap
import CacheCluster.Settings.Discovery
import CacheCluster.Settings.Replication

/-! # All settings of a node

What a configuration comes to: each setting by name, with the value that is in force, and likewise
for the settings of the parts of a node.
-/

namespace CacheCluster.Settings

namespace Value

def ofNat (n : Nat) : Value := integer n

/-- The text, or nothing where there is none. -/
def ofText? (s : Option String) : Value := s.elim null text

def ofTexts (ss : List String) : Value := list (ss.map text)

end Value

namespace Configuration

/-- Every setting, in the order of its kind. -/
def overview (config : Configuration) : Noted (List (String × Value)) := do
  return [
    ("peer_discovery", .text config.peerDiscovery),
    ("peer_urls", .ofTexts config.peerUrls),
    ("multicast_group_address", .ofText? config.multicastGroupAddress),
    ("multicast_group_port", .ofText? config.multicastGroupPort),
    ("multicast_ttl", .ofText? config.multicastTimeToLive),
    ("multicast_host_name", .ofText? config.multicastHostName),
    ("heartbeat_interval", .ofNat (← config.heartbeatInterval)),
    ("peer_stale_timeout", .ofNat (← config.staleTimeout)),
    ("max_peers_per_send", .ofNat (← config.maxPeersPerSend)),
    ("replicate_puts", .bool (← config.replicatePuts)),
    ("replicate_puts_via_copy", .bool (← config.replicatePutsViaCopy)),
    ("replicate_updates", .bool (← config.replicateUpdates)),
    ("replicate_updates_via_copy", .bool (← config.replicateUpdatesViaCopy)),
    ("replicate_removals", .bool (← config.replicateRemovals)),
    ("replicate_asynchronously", .bool (← config.replicateAsynchronously)),
    ("async_replication_interval_ms", .integer (← config.asyncInterval)),
    ("async_max_batch_size", .integer (← config.asyncMaxBatchSize)),
    ("replication_shutdown_grace", .ofNat (← config.shutdownGrace)),
    ("listener_host_name", .text config.listenerHostName),
    ("listener_port", .ofNat (← config.listenerPort)),
    ("socket_timeout", .ofNat (← config.socketTimeout)),
    ("bootstrap_enabled", .bool (← config.bootstrapEnabled)),
    ("bootstrap_asynchronously", .bool (← config.bootstrapAsynchronously)),
    ("bootstrap_maximum_chunk_size_bytes", .integer (← config.bootstrapChunkSize)),
    ("caches", .ofTexts config.caches),
    ("metrics_port", config.metricsPort.elim .null .ofNat)]

/-- The settings that are not what they are without a configuration. -/
def changes (config : Configuration) : Noted (List (String × Value)) := do
  let defaults := (overview {}).value
  return (← config.overview).filter fun (name, value) => defaults.lookup name != some value

end Configuration

def Multicast.overview (settings : Multicast) : List (String × Value) :=
  [("group_address", .text settings.groupAddress.render),
    ("group_port", .ofNat settings.groupPort),
    ("time_to_live", .ofNat settings.timeToLive),
    ("host_address", .ofText? (settings.hostAddress.map Ipv4.render)),
    ("heartbeat_interval", .ofNat settings.heartbeatInterval),
    ("stale_timeout", .ofNat settings.staleTimeout),
    ("max_peers_per_send", .ofNat settings.maxPeersPerSend)]

/-- The name of the mode of replication. -/
def Replication.mode (settings : Replication) : String :=
  if settings.asynchronous then "async" else "sync"

def Replication.overview (settings : Replication) : List (String × Value) :=
  [("replicate_puts", .bool settings.puts),
    ("replicate_puts_via_copy", .bool settings.putsViaCopy),
    ("replicate_updates", .bool settings.updates),
    ("replicate_updates_via_copy", .bool settings.updatesViaCopy),
    ("replicate_removals", .bool settings.removals),
    ("mode", .text settings.mode),
    ("async_interval", .ofNat settings.interval),
    ("max_batch_size", .ofNat settings.maxBatch),
    ("call_timeout", .ofNat settings.callTimeout),
    ("shutdown_grace", .ofNat settings.shutdownGrace),
    ("replicates_anything", .bool settings.replicatesAnything)]

def Bootstrap.overview (settings : Bootstrap) : List (String × Value) :=
  [("asynchronously", .bool settings.asynchronous),
    ("maximum_chunk_size_bytes", .ofNat settings.maxChunkBytes),
    ("chunk_budget_bytes", .ofNat settings.budget)]

end CacheCluster.Settings
